import LoanLedger.Engine.Machine
import LoanLedger.Proofs.Validity
import Mathlib.Data.Finset.Card
import Mathlib.Logic.Relation

/-!
# States that are reached

* `Definition.Reaches d s s'` : a chain of transitions leads from `s` to `s'`;
* `Definition.Explores d reached waiting result` : the loop that follows transitions out of the states that wait ends
  with `result`; `explores_reached` : so it ends with `d.reached`, which needs no bound on its steps;
* `Definition.Covers d start reached waiting` : its invariant; `Explores.exact` : so exactly the states that chains lead
  to are reached;
* `Definition.follow d id types` : the state that events of these types lead to; `state?_handled` : the engine leads a
  loan to it;
* `reach_warnings_exact` : the states that are told as unreachable are those that no chain leads to, and in a definition
  without errors and duplicate triggers those that no events lead to.
-/

namespace LoanLedger.Workflow.Definition

variable {d : Definition} {s s' start : State} {t : Transition} {ts : List Transition} {id : String}
  {reached result : List String} {waiting news : List State}

/-! ## Chains of transitions -/

/-- A transition leads from a state to the first one that is declared under its destination. -/
def Leads (d : Definition) (s s' : State) : Prop := ∃ t ∈ s.transitions, d.find? t.to = some s'

def Reaches (d : Definition) : State → State → Prop := Relation.ReflTransGen d.Leads

theorem find?_self (h : d.find? id = some s) : d.find? s.id = some s := by
  rw [id_of_find? h, h]

/-- Chains lead to states that are found under their own ids. -/
theorem Reaches.find? (h : d.Reaches start s) (hs : d.find? start.id = some start) : d.find? s.id = some s := by
  induction h with
  | refl => exact hs
  | tail _ hl _ =>
    obtain ⟨t, -, ht⟩ := hl
    exact find?_self ht

/-! ## States that come in -/

/-- The state that a transition leads to comes in, unless it was reached before. -/
def enter (d : Definition) (acc : List String × List State) (t : Transition) : List String × List State :=
  match d.find? t.to with
  | some s => if acc.1.contains s.id then acc else (s.id :: acc.1, s :: acc.2)
  | none => acc

/-- The states that come in by transitions. -/
structure Fresh (d : Definition) (reached : List String) (ts : List Transition) (news : List State) : Prop where
  led : ∀ s ∈ news, ∃ t ∈ ts, d.find? t.to = some s
  distinct : (news.map (·.id)).Nodup
  apart : ∀ s ∈ news, s.id ∉ reached
  all : ∀ t ∈ ts, ∀ s, d.find? t.to = some s → s.id ∈ news.map (·.id) ++ reached

namespace Fresh

theorem nil (d : Definition) (reached : List String) : d.Fresh reached [] [] := by
  constructor <;> simp

/-- A transition that leads to no state that is new brings nothing in. -/
theorem stay (h : d.Fresh reached ts news) (ht : ∀ s, d.find? t.to = some s → s.id ∈ reached) :
    d.Fresh reached (t :: ts) news where
  led s hs := by
    obtain ⟨t', ht', hf⟩ := h.led s hs
    exact ⟨t', List.mem_cons_of_mem _ ht', hf⟩
  distinct := h.distinct
  apart := h.apart
  all := by
    rw [List.forall_mem_cons]
    exact ⟨fun s hs => List.mem_append_right _ (ht s hs), h.all⟩

/-- A transition that leads to a new state brings it in. -/
theorem enter (h : d.Fresh (s.id :: reached) ts news) (ht : d.find? t.to = some s) (hs : s.id ∉ reached) :
    d.Fresh reached (t :: ts) (news ++ [s]) where
  led := by
    intro s' hs'
    rcases List.mem_append.mp hs' with hs' | hs'
    · obtain ⟨t', ht', hf⟩ := h.led s' hs'
      exact ⟨t', List.mem_cons_of_mem _ ht', hf⟩
    · rw [List.mem_singleton.mp hs']
      exact ⟨t, List.mem_cons_self, ht⟩
  distinct := by
    have other : s.id ∉ news.map (·.id) := by
      intro hm
      obtain ⟨s', hs', he⟩ := List.mem_map.mp hm
      exact h.apart s' hs' (by simp [he])
    simp only [List.map_append, List.map_cons, List.map_nil, List.nodup_append, h.distinct, List.nodup_singleton]
    refine ⟨trivial, trivial, ?_⟩
    intro a ha b hb
    simp only [List.mem_singleton] at hb
    exact fun he => other (hb ▸ he ▸ ha)
  apart := by
    intro s' hs'
    rcases List.mem_append.mp hs' with hs' | hs'
    · exact fun hm => h.apart s' hs' (List.mem_cons_of_mem _ hm)
    · rw [List.mem_singleton.mp hs']
      exact hs
  all := by
    have moved : (news ++ [s]).map (·.id) ++ reached = news.map (·.id) ++ s.id :: reached := by simp
    rw [moved, List.forall_mem_cons]
    refine ⟨fun s' hs' => ?_, h.all⟩
    rw [← Option.some.inj (ht.symm.trans hs')]
    simp

/-- The ids that were not reached become fewer by those that come in. -/
theorem left (h : d.Fresh reached ts news) :
    (d.stateIds.toFinset \ (news.map (·.id) ++ reached).toFinset).card + news.length =
      (d.stateIds.toFinset \ reached.toFinset).card := by
  have declared : (news.map (·.id)).toFinset ⊆ d.stateIds.toFinset \ reached.toFinset := by
    intro id hid
    obtain ⟨s, hs, rfl⟩ := List.mem_map.mp (List.mem_toFinset.mp hid)
    obtain ⟨t, -, ht⟩ := h.led s hs
    have : s.id ∈ d.stateIds := List.mem_map_of_mem (List.mem_of_find?_eq_some ht)
    simp [this, h.apart s hs]
  have card : (news.map (·.id)).toFinset.card = news.length := by
    rw [List.toFinset_card_of_nodup h.distinct, List.length_map]
  have apart : d.stateIds.toFinset \ (news.map (·.id) ++ reached).toFinset =
      (d.stateIds.toFinset \ reached.toFinset) \ (news.map (·.id)).toFinset := by
    ext id
    simp only [Finset.mem_sdiff, List.mem_toFinset, List.mem_append, not_or]
    exact ⟨fun ⟨hd, hn, hr⟩ => ⟨⟨hd, hr⟩, hn⟩, fun ⟨⟨hd, hr⟩, hn⟩ => ⟨hd, hn, hr⟩⟩
  rw [apart, ← card]
  exact Finset.card_sdiff_add_card_eq_card declared

end Fresh

theorem exists_fresh (d : Definition) (ts : List Transition) : ∀ (reached : List String) (waiting : List State),
    ∃ news, ts.foldl d.enter (reached, waiting) = (news.map (·.id) ++ reached, news ++ waiting) ∧
      d.Fresh reached ts news := by
  induction ts with
  | nil =>
    intro reached waiting
    exact ⟨[], rfl, .nil d reached⟩
  | cons t ts ih =>
    intro reached waiting
    by_cases h : ∃ s, d.find? t.to = some s ∧ s.id ∉ reached
    · obtain ⟨s, ht, hs⟩ := h
      obtain ⟨news, hn, fresh⟩ := ih (s.id :: reached) (s :: waiting)
      have entered : d.enter (reached, waiting) t = (s.id :: reached, s :: waiting) := by simp [enter, ht, hs]
      refine ⟨news ++ [s], ?_, fresh.enter ht hs⟩
      rw [List.foldl_cons, entered, hn]
      simp
    · have known : ∀ s, d.find? t.to = some s → s.id ∈ reached := by
        intro s ht
        by_contra hs
        exact h ⟨s, ht, hs⟩
      have stayed : d.enter (reached, waiting) t = (reached, waiting) := by
        unfold enter
        split
        · next s ht => simp [known s ht]
        · rfl
      obtain ⟨news, hn, fresh⟩ := ih reached waiting
      exact ⟨news, by rw [List.foldl_cons, stayed, hn], fresh.stay known⟩

theorem newTargets_fresh (d : Definition) (reached : List String) (ts : List Transition) :
    ∃ news, d.newTargets reached ts = (news.map (·.id) ++ reached, news) ∧ d.Fresh reached ts news := by
  obtain ⟨news, hn, fresh⟩ := d.exists_fresh ts reached []
  exact ⟨news, hn.trans (by rw [List.append_nil]), fresh⟩

/-! ## The loop -/

/-- The loop ends: where no state waits, or after the transitions out of the one that waits first were followed. -/
inductive Explores (d : Definition) : List String → List State → List String → Prop where
  | done {reached : List String} : Explores d reached [] reached
  | next {reached result : List String} {s : State} {waiting : List State} :
    Explores d (d.newTargets reached s.transitions).1 ((d.newTargets reached s.transitions).2 ++ waiting) result →
    Explores d reached (s :: waiting) result

/-- It takes no more steps than states wait and ids are left. -/
theorem explores_of_le : ∀ (fuel : Nat) (reached : List String) (waiting : List State),
    waiting.length + (d.stateIds.toFinset \ reached.toFinset).card ≤ fuel →
      d.Explores reached waiting (d.explore fuel reached waiting) := by
  intro fuel
  induction fuel with
  | zero =>
    intro reached waiting h
    have : waiting = [] := List.length_eq_zero_iff.mp (by omega)
    subst this
    exact .done
  | succ fuel ih =>
    intro reached waiting h
    cases waiting with
    | nil => exact .done
    | cons s waiting =>
      obtain ⟨news, hn, fresh⟩ := d.newTargets_fresh reached s.transitions
      have left := fresh.left
      apply Explores.next
      rw [explore]
      apply ih
      rw [hn, List.length_append]
      rw [List.length_cons] at h
      dsimp only
      omega

theorem explores_reached (h : d.find? d.initialState = some start) : d.Explores [start.id] [start] d.reached := by
  have declared : start.id ∈ d.stateIds := List.mem_map_of_mem (List.mem_of_find?_eq_some h)
  unfold reached
  rw [h]
  apply explores_of_le
  have fewer : (d.stateIds.toFinset \ [start.id].toFinset).card ≤ d.states.length := by
    refine (Finset.card_le_card Finset.sdiff_subset).trans ((List.toFinset_card_le _).trans ?_)
    rw [stateIds, List.length_map]
  simp only [List.length_singleton]
  omega

/-! ## What the loop reaches -/

/-- What was reached was reached by chains, and those out of it that were not followed start from states that wait. -/
structure Covers (d : Definition) (start : State) (reached : List String) (waiting : List State) : Prop where
  begun : start.id ∈ reached
  sound : ∀ id ∈ reached, ∃ s, d.Reaches start s ∧ s.id = id
  led : ∀ s ∈ waiting, d.Reaches start s
  closed : ∀ s, d.Reaches start s → s.id ∈ reached → s ∈ waiting ∨ ∀ s', d.Leads s s' →
    s'.id ∈ reached

namespace Covers

theorem initial (hs : d.find? start.id = some start) : d.Covers start [start.id] [start] where
  begun := List.mem_singleton_self _
  sound := by
    intro id hid
    exact ⟨start, .refl, (List.mem_singleton.mp hid).symm⟩
  led := by
    intro s hs
    rw [List.mem_singleton.mp hs]
    exact .refl
  closed := by
    intro s hr hid
    have found := hr.find? hs
    rw [List.mem_singleton.mp hid, hs] at found
    exact .inl (by simp [Option.some.inj found])

/-- Following the transitions out of the state that waits first keeps that. -/
theorem next (h : d.Covers start reached (s :: waiting)) (hs : d.find? start.id = some start)
    (hn : d.Fresh reached s.transitions news) : d.Covers start (news.map (·.id) ++ reached) (news ++ waiting) := by
  have here : d.Reaches start s := h.led s List.mem_cons_self
  have led : ∀ s' ∈ news, d.Reaches start s' := fun s' hs' => here.tail (hn.led s' hs')
  constructor
  · exact List.mem_append_right _ h.begun
  · intro id hid
    rcases List.mem_append.mp hid with hid | hid
    · obtain ⟨s', hs', he⟩ := List.mem_map.mp hid
      exact ⟨s', led s' hs', he⟩
    · exact h.sound id hid
  · intro s' hs'
    rcases List.mem_append.mp hs' with hs' | hs'
    · exact led s' hs'
    · exact h.led s' (List.mem_cons_of_mem _ hs')
  · intro s₁ hr hid
    rcases List.mem_append.mp hid with hid | hid
    · -- it came in now, as no other state is found under its id
      obtain ⟨s₂, hs₂, he⟩ := List.mem_map.mp hid
      have found := (led s₂ hs₂).find? hs
      rw [he, hr.find? hs] at found
      rw [Option.some.inj found]
      exact .inl (List.mem_append_left _ hs₂)
    · rcases h.closed s₁ hr hid with hw | hall
      · rcases List.mem_cons.mp hw with rfl | hw
        · exact .inr fun s' ⟨t, ht, hf⟩ => hn.all t ht s' hf
        · exact .inl (List.mem_append_right _ hw)
      · exact .inr fun s' hl => List.mem_append_right _ (hall s' hl)

/-- Where no state waits, everything that chains lead to was reached. -/
theorem exact (h : d.Covers start reached []) : id ∈ reached ↔ ∃ s, d.Reaches start s ∧ s.id = id := by
  refine ⟨h.sound id, ?_⟩
  rintro ⟨s, hr, rfl⟩
  induction hr with
  | refl => exact h.begun
  | tail hr hl ih =>
    rcases h.closed _ hr ih with hw | hall
    · cases hw
    · exact hall _ hl

end Covers

theorem Explores.exact (h : d.Explores reached waiting result) (hs : d.find? start.id = some start)
    (hc : d.Covers start reached waiting) : id ∈ result ↔ ∃ s, d.Reaches start s ∧ s.id = id := by
  induction h with
  | done => exact hc.exact
  | @next reached _ s _ _ ih =>
    obtain ⟨news, hn, fresh⟩ := d.newTargets_fresh reached s.transitions
    apply ih
    rw [hn]
    exact hc.next hs fresh

theorem mem_reached (h : d.find? d.initialState = some start) :
    id ∈ d.reached ↔ ∃ s, d.Reaches start s ∧ s.id = id :=
  (explores_reached h).exact (find?_self h) (.initial (find?_self h))

/-! ## Order of declaration -/

theorem idxOf_lt_of_filter {p : String → Bool} {a b : String} (ha : p a = true) (hb : p b = true) {ids : List String}
    (h : (ids.filter p).idxOf a < (ids.filter p).idxOf b) : ids.idxOf a < ids.idxOf b := by
  induction ids with
  | nil => simp at h
  | cons id ids ih =>
    by_cases hp : p id = true
    · rw [List.filter_cons_of_pos hp] at h
      by_cases hia : id = a
      · by_cases hib : id = b
        · simp [hib] at h
        · simp [hia, hia ▸ hib]
      · by_cases hib : id = b
        · simp [hib] at h
        · rw [List.idxOf_cons_ne _ hia, List.idxOf_cons_ne _ hib] at h ⊢
          have := ih (by omega)
          omega
    · have hia : id ≠ a := fun he => hp (he ▸ ha)
      have hib : id ≠ b := fun he => hp (he ▸ hb)
      rw [List.filter_cons_of_neg hp] at h
      rw [List.idxOf_cons_ne _ hia, List.idxOf_cons_ne _ hib]
      have := ih h
      omega

/-- Of ids without repetitions each one is declared before those that follow. -/
theorem pairwise_eraseDups : ∀ ids : List String, ids.eraseDups.Pairwise fun a b => ids.idxOf a < ids.idxOf b
  | [] => .nil
  | id :: ids => by
    have shorter : (ids.filter fun b => !b == id).length < (id :: ids).length :=
      Nat.lt_succ_of_le (List.length_filter_le _ _)
    have others : ∀ b ∈ (ids.filter fun b => !b == id).eraseDups, id ≠ b := by
      intro b hb he
      simp [he] at hb
    rw [List.eraseDups_cons, List.pairwise_cons]
    refine ⟨fun b hb => ?_, (pairwise_eraseDups (ids.filter fun b => !b == id)).imp_of_mem fun ha hb h => ?_⟩
    · rw [List.idxOf_cons_self, List.idxOf_cons_ne _ (others b hb)]
      omega
    · have ha := others _ ha
      have hb := others _ hb
      have := idxOf_lt_of_filter (by simp [Ne.symm ha]) (by simp [Ne.symm hb]) h
      rw [List.idxOf_cons_ne _ ha, List.idxOf_cons_ne _ hb]
      omega
termination_by ids => ids.length
decreasing_by exact shorter

/-! ## Events -/

/-- The state that an event of a type leads to; an event without a transition leaves the state. -/
def react (d : Definition) (id type : String) : String :=
  match d.find? id with
  | none => id
  | some s => match s.find? type with
    | none => id
    | some t => t.to

def follow (d : Definition) (id : String) (types : List String) : String :=
  types.foldl d.react id

theorem follow_append (types : List String) (type : String) :
    d.follow id (types ++ [type]) = d.react (d.follow id types) type := by
  simp [follow]

def handled (d : Definition) (m : Engine.Machine) (es : List Event) : Engine.Machine :=
  es.foldl (fun m e => (m.handle d e).2) m

/-- An event that was not applied before leads the loan so. -/
theorem state?_handle {m : Engine.Machine} {e : Event} (hs : m.state? e.loanId = some id) (hm : m.move? e.key = none) :
    (m.handle d e).2.state? e.loanId = some (d.react id e.type) := by
  unfold Engine.Machine.handle react
  rw [hs]
  dsimp only
  cases hf : d.find? id with
  | none => exact hs
  | some s =>
    rw [hm]
    dsimp only
    cases ht : s.find? e.type with
    | none => exact hs
    | some t => simp [Engine.Machine.put, Engine.Machine.record]

/-- No move is made under the key of another event. -/
theorem move?_handle {m : Engine.Machine} {e : Event} {key : String} (hk : key ≠ e.key) :
    (m.handle d e).2.move? key = m.move? key := by
  unfold Engine.Machine.handle
  split
  · rfl
  · split
    · rfl
    · split
      · rfl
      · split
        · rfl
        · simp [Engine.Machine.put, Engine.Machine.record, hk]

/-- Events that were not applied before lead the loan so, one after the other. -/
theorem state?_handled {loanId : String} : ∀ {es : List Event} {m : Engine.Machine} {id : String},
    m.state? loanId = some id → (∀ e ∈ es, e.loanId = loanId ∧ m.move? e.key = none) →
      (es.map (·.key)).Nodup →
      (d.handled m es).state? loanId = some (d.follow id (es.map (·.type))) := by
  intro es
  induction es with
  | nil =>
    intro m id hs _ _
    exact hs
  | cons e es ih =>
    intro m id hs hes hk
    obtain ⟨⟨rfl, hm⟩, hes⟩ := List.forall_mem_cons.mp hes
    rw [List.map_cons, List.nodup_cons] at hk
    apply ih (state?_handle hs hm) ?_ hk.2
    intro e' he'
    have other : e'.key ≠ e.key := fun he => hk.1 (he ▸ List.mem_map_of_mem he')
    rw [move?_handle other]
    exact hes e' he'

/-- Where no trigger is found to be a duplicate, the first transition with a trigger is the only one. -/
theorem nodup_triggers : ∀ {seen : List String}, (∀ m, Finding.warning m ∉ d.transitionFindings id seen ts) →
    (∀ t ∈ ts, t.on ≠ "") → (ts.map (·.on)).Nodup ∧ ∀ t ∈ ts, t.on ∉ seen := by
  induction ts with
  | nil => simp
  | cons t ts ih =>
    intro seen h ht
    obtain ⟨hon, ht⟩ := List.forall_mem_cons.mp ht
    simp only [transitionFindings, List.mem_append, not_or] at h
    obtain ⟨distinct, apart⟩ := ih (fun m => (h m).2) ht
    have unseen : t.on ∉ seen := by
      intro hm
      have := fun m => (h m).1.1
      simp [hon, hm] at this
    refine ⟨?_, ?_⟩
    · rw [List.map_cons, List.nodup_cons]
      refine ⟨fun hm => ?_, distinct⟩
      obtain ⟨t', ht', he⟩ := List.mem_map.mp hm
      exact apart t' ht' (by simp [he])
    · rw [List.forall_mem_cons]
      exact ⟨unseen, fun t' ht' hm => apart t' ht' (List.mem_cons_of_mem _ hm)⟩

theorem find?_of_nodup (h : (ts.map (·.on)).Nodup) (ht : t ∈ ts) : ts.find? (fun t' => t'.on = t.on) = some t := by
  induction ts with
  | nil => cases ht
  | cons t' ts ih =>
    rw [List.map_cons, List.nodup_cons] at h
    rcases List.mem_cons.mp ht with rfl | ht
    · exact List.find?_cons_of_pos (by simp)
    · have other : t'.on ≠ t.on := fun he => h.1 (he ▸ List.mem_map_of_mem ht)
      rw [List.find?_cons_of_neg (by simpa using other)]
      exact ih h.2 ht

/-- In a definition without errors an event leads where a transition does, or the state stays. -/
theorem Reaches.react (hw : d.IsWellFormed) (hs : d.find? start.id = some start) (h : d.Reaches start s)
    (type : String) : ∃ s', d.Reaches start s' ∧ s'.id = d.react s.id type := by
  have found := h.find? hs
  unfold Definition.react
  rw [found]
  dsimp only
  cases ht : s.find? type with
  | none => exact ⟨s, h, rfl⟩
  | some t =>
    have mem : t ∈ s.transitions := List.mem_of_find?_eq_some ht
    have declared := (hw.transitions s (List.mem_of_find?_eq_some found) t mem).2
    obtain ⟨s', hs'⟩ := Option.isSome_iff_exists.mp (isSome_find?.mpr declared)
    exact ⟨s', h.tail ⟨t, mem, hs'⟩, id_of_find? hs'⟩

/-- Events lead only where chains do. -/
theorem Reaches.follow (hw : d.IsWellFormed) (hs : d.find? start.id = some start) :
    ∀ (types : List String) {s : State}, d.Reaches start s →
      ∃ s', d.Reaches start s' ∧ s'.id = d.follow s.id types := by
  intro types
  induction types with
  | nil => exact fun h => ⟨_, h, rfl⟩
  | cons type types ih =>
    intro s h
    obtain ⟨s', h', he⟩ := h.react hw hs type
    obtain ⟨s'', h'', he'⟩ := ih h'
    refine ⟨s'', h'', ?_⟩
    rw [he', he]
    rfl

/-- Where moreover no trigger is a duplicate, they lead wherever chains do. -/
theorem follow_of_reaches (hw : d.IsWellFormed) (hd : ∀ m, Finding.warning m ∉ d.allTransitionFindings)
    (hs : d.find? start.id = some start) (h : d.Reaches start s) : ∃ types, d.follow start.id types = s.id := by
  induction h with
  | refl => exact ⟨[], rfl⟩
  | @tail s s' hr hl ih =>
    obtain ⟨types, he⟩ := ih
    obtain ⟨t, ht, hf⟩ := hl
    have found := Reaches.find? hr hs
    have mem := List.mem_of_find?_eq_some found
    have quiet : ∀ m, Finding.warning m ∉ d.transitionFindings s.id [] s.transitions := by
      intro m hm
      exact hd m (List.mem_flatMap.mpr ⟨s, mem, hm⟩)
    have distinct := (nodup_triggers quiet fun t ht => (hw.transitions s mem t ht).1).1
    refine ⟨types ++ [t.on], ?_⟩
    have reacted : d.react s.id t.on = t.to := by
      unfold react
      rw [found]
      dsimp only
      rw [State.find?, find?_of_nodup distinct ht]
    rw [follow_append, he, reacted, id_of_find? hf]

/-! ## Warnings -/

def unreached (d : Definition) : List String :=
  d.stateIds.eraseDups.filter fun id => id ≠ "" && !d.reached.contains id

theorem reachWarnings_eq (h : d.find? d.initialState = some start) : d.reachWarnings =
    d.unreached.map fun id => "State " ++ id ++ " is unreachable from " ++ d.initialState := by
  unfold reachWarnings
  rw [h, ← id_of_find? h]
  rfl

theorem mem_unreached (h : d.find? d.initialState = some start) :
    id ∈ d.unreached ↔ id ∈ d.stateIds ∧ id ≠ "" ∧ ¬ ∃ s, d.Reaches start s ∧ s.id = id := by
  rw [← mem_reached h]
  simp [unreached]

/-- Warnings of unreachable states are exact. Where the initial state is declared the loop ends, and the warnings name,
once each and in the order of declaration, the ids of states that are not empty and that no chain of transitions leads
to. If there are no errors and no trigger is found to be a duplicate, these are the states that no events lead to; the
engine leads a loan where the events that it has not applied before lead. -/
theorem reach_warnings_exact (d : Definition) (start : State) (h : d.find? d.initialState = some start) :
    d.Explores [start.id] [start] d.reached ∧
    (∃ ids : List String,
      (d.reachWarnings = ids.map fun id => "State " ++ id ++ " is unreachable from " ++ d.initialState) ∧
      (ids.Pairwise fun a b => d.stateIds.idxOf a < d.stateIds.idxOf b) ∧
      (∀ id, id ∈ ids ↔ id ∈ d.stateIds ∧ id ≠ "" ∧ ¬ ∃ s, d.Reaches start s ∧ s.id = id) ∧
      (d.errors = [] → (∀ m, Finding.warning m ∉ d.allTransitionFindings) →
        ∀ id, id ∈ ids ↔ id ∈ d.stateIds ∧ ∀ types, d.follow d.initialState types ≠ id)) ∧
    ∀ (loanId : String) (m : Engine.Machine) (es : List Event), m.state? loanId = some d.initialState →
      (∀ e ∈ es, e.loanId = loanId ∧ m.move? e.key = none) → (es.map (·.key)).Nodup →
        (d.handled m es).state? loanId = some (d.follow d.initialState (es.map (·.type))) := by
  have self := find?_self h
  refine ⟨explores_reached h, ⟨d.unreached, reachWarnings_eq h, ?_, fun id => mem_unreached h, ?_⟩,
    fun loanId m es => state?_handled⟩
  · exact (pairwise_eraseDups d.stateIds).sublist List.filter_sublist
  · intro he hd id
    have hw := errors_eq_nil.mp he
    rw [mem_unreached h, ← id_of_find? h]
    have led : (∃ s, d.Reaches start s ∧ s.id = id) ↔ ∃ types, d.follow start.id types = id := by
      constructor
      · rintro ⟨s, hr, rfl⟩
        exact follow_of_reaches hw hd self hr
      · rintro ⟨types, rfl⟩
        exact Reaches.follow hw self types .refl
    rw [led, not_exists]
    exact ⟨fun ⟨hm, _, hf⟩ => ⟨hm, hf⟩, fun ⟨hm, hf⟩ => ⟨hm, hw.ids id hm, hf⟩⟩

/-- A definition with a state that nothing leads to. -/
def stranded : Definition :=
  ⟨"stranded", 1, "open",
    [⟨"open", [⟨"knock", "open", []⟩], ""⟩, ⟨"lost", [⟨"knock", "open", []⟩], ""⟩], "", ""⟩

/-- An event that leaves the state as it is. -/
def knockAgain : Event where
  type := "knock"
  loanId := "L1"
  founderId := "F1"
  occurredAt := Clock.defaultStart
  payload := []
  actor := systemActor
  eventId := none
  isAware := rfl

theorem reach_warnings_exact_of_stranded :
    stranded.find? stranded.initialState = some ⟨"open", [⟨"knock", "open", []⟩], ""⟩ ∧
      stranded.errors = [] ∧
      (∀ m, Finding.warning m ∉ stranded.allTransitionFindings) ∧
      stranded.reachWarnings = ["State lost is unreachable from open"] ∧
      (∀ types, stranded.follow "open" types ≠ "lost") ∧
      (stranded.handled (Engine.Machine.empty.put "L1" "open") [knockAgain]).state? "L1" =
        some (stranded.follow "open" ["knock"]) := by
  have valid : stranded.errors = [] := by decide
  have quiet : ∀ m, Finding.warning m ∉ stranded.allTransitionFindings := by
    have none : stranded.allTransitionFindings = [] := by decide
    simp [none]
  have warnings : stranded.reachWarnings = ["State lost is unreachable from open"] := by decide
  obtain ⟨-, ⟨ids, told, -, -, led⟩, engine⟩ := reach_warnings_exact stranded _ rfl
  have events :
      ∀ e ∈ [knockAgain], e.loanId = "L1" ∧ (Engine.Machine.empty.put "L1" "open").move? e.key = none := by
    simp [knockAgain, Engine.Machine.put, Engine.Machine.empty]
  refine ⟨rfl, valid, quiet, warnings, ?_, engine "L1" _ [knockAgain] rfl events (List.nodup_singleton _)⟩
  rw [warnings] at told
  obtain ⟨id, hid⟩ : ∃ id, id ∈ ids := List.exists_mem_of_ne_nil _ (by rintro rfl; simp at told)
  obtain ⟨declared, apart⟩ := (led valid quiet id).mp hid
  -- of the two declared states the initial one is led to by no events at all
  have other : id ≠ "open" := fun he => apart [] he.symm
  have : id = "lost" := by simpa [stateIds, stranded, other] using declared
  exact this ▸ apart

end LoanLedger.Workflow.Definition
