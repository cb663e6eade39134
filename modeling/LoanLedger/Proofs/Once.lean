import LoanLedger.Proofs.Served
import LoanLedger.Proofs.Validity

/-!
# Every event moves its loan at most once

* `Once t` : no key is recorded twice, and only moves are recorded under one; `Told.once` : every call keeps
  that;
* `Tables.moves t loanId`, `movesIn loanId d ts` : how many moves of a loan are recorded, and how many of the
  turns are answered by one; `movesIn_eq` : they are the same;
* `Recorded t e a b` : the move from `a` to `b` is recorded under the key of `e`, and the loan is open;
  `Applies.recorded` : so it is ever after `e` was answered by it;
* `Recorded.answered` : where nothing disturbs it, `e` is answered by that move then, and the rows stay;
* `applied_once` : so every event moves its loan at most once in a run under a valid definition.
-/

namespace LoanLedger

def Ledger.Tables.moves (t : Ledger.Tables) (loanId : String) : Nat :=
  (t.logOf loanId).countP (·.isMove)

namespace Engine

open Ledger Workflow

variable {t t' : Tables} {loanId key : String} {r : AuditRecord} {entry : Entry} {g : Engine} {c : Call} {x : Answer}
  {e : Event} {a b : String} {d : Desk} {ts : List Turn}

/-! ## Keys -/

/-- No key is recorded twice, and only moves are recorded under one. -/
structure Once (t : Tables) : Prop where
  nodup : (t.entries.filterMap (·.key)).Nodup
  onMoves : ∀ e ∈ t.entries, e.key.isSome → e.isMove = true

theorem once_empty : Once .empty := ⟨.nil, fun _ he => by cases he⟩

theorem Once.of_entries (h : Once t) (he : t'.entries = t.entries) : Once t' :=
  ⟨he ▸ h.nodup, fun e hm => h.onMoves e (he ▸ hm)⟩

theorem key_new (h : t.isTaken entry = false) (hk : entry.key = some key) : key ∉ t.entries.filterMap (·.key) := by
  intro hm
  obtain ⟨y, hy, hyk⟩ := List.mem_filterMap.mp hm
  have found : (t.entryByKey? key).isSome := List.find?_isSome.mpr ⟨y, hy, by simpa using hyk⟩
  simp [Tables.isTaken, hk, found] at h

/-- An accepted entry keeps that, if only a move has a key. -/
theorem Once.appended (h : Once t) (ha : Appended loanId r t entry t')
    (hr : r.key.isSome → r.event = .stateTransition) : Once t' := by
  have hentries := ha.entries
  refine ⟨?_, fun y hy hk => ?_⟩
  · rw [hentries, List.filterMap_append]
    cases hk : entry.key with
    | none => simpa [hk] using h.nodup
    | some key =>
      have hnew := key_new ha.isFree hk
      rw [List.nodup_append]
      refine ⟨h.nodup, by simp [hk], fun a ha b hb hab => hnew ?_⟩
      obtain rfl : b = key := by simpa [hk] using hb
      exact hab ▸ ha
  · rw [hentries] at hy
    rcases List.mem_append.mp hy with hy | hy
    · exact h.onMoves y hy hk
    · obtain rfl := List.mem_singleton.mp hy
      rw [ha.isMove, hr (ha.key ▸ hk)]
      rfl

theorem Once.remarked (h : Once t) (hr : Remarked loanId t t') : Once t' := by
  induction hr with
  | same hs => exact h.of_entries hs.entries
  | append _ hp ha hs ih => exact (ih.appended ha (by simp [hp.noKey])).of_entries hs.entries

theorem Told.once (h : g.Told t c x t') (ho : Once t) : Once t' := by
  cases h with
  | opened _ ha => exact Once.appended (t := { t with loans := t.loans ++ _ }) ⟨ho.nodup, ho.onMoves⟩ ha nofun
  | ignored _ _ _ ha => exact ho.appended ha nofun
  | applied _ _ _ hr hm ha => exact ((ho.remarked hr).of_entries hm.entries).appended ha fun _ => rfl
  | paid _ hr => exact ho.remarked hr

/-! ## Moves -/

def Answer.moves (x : Answer) (loanId : String) : Bool :=
  match x with
  | .handled o => o.isApplied && o.loanId = loanId
  | _ => false

theorem countP_appended {other : String} (p : Entry → Bool) (h : Appended loanId r t entry t') :
    (t'.logOf other).countP p = (t.logOf other).countP p + if loanId = other ∧ p entry then 1 else 0 := by
  by_cases ho : loanId = other
  · subst ho
    rw [h.logOf, List.countP_append, List.countP_singleton]
    simp
  · rw [h.logOf_other (Ne.symm ho), if_neg (fun hh => ho hh.1), Nat.add_zero]

theorem countP_remarked {p : Entry → Bool} (hp : ∀ e, p e = true → e.isMove = true) (h : Remarked loanId t t')
    (other : String) : (t'.logOf other).countP p = (t.logOf other).countP p := by
  induction h with
  | same hs => rw [logOf_of_entries hs.entries]
  | @append _ _ _ _ e _ hr ha hs ih =>
    have plain : ¬ p e = true := fun hh => hr.notMoving (by simpa [ha.isMove] using hp e hh)
    rw [logOf_of_entries hs.entries, countP_appended p ha, if_neg (fun hh => plain hh.2), ih, Nat.add_zero]

theorem moves_of_entries (h : t'.entries = t.entries) (loanId : String) : t'.moves loanId = t.moves loanId := by
  rw [Tables.moves, logOf_of_entries h, Tables.moves]

theorem moves_appended {other : String} (h : Appended loanId r t entry t') :
    t'.moves other = t.moves other + if loanId = other ∧ r.event = .stateTransition then 1 else 0 := by
  rw [Tables.moves, countP_appended _ h, h.isMove, Tables.moves]
  simp

theorem moves_remarked (h : Remarked loanId t t') (other : String) : t'.moves other = t.moves other :=
  countP_remarked (fun _ => id) h other

/-- A call records a move of a loan exactly when it is answered by one. -/
theorem Told.moves (h : g.Told t c x t') (other : String) :
    t'.moves other = t.moves other + if x.moves other then 1 else 0 := by
  cases h with
  | opened _ ha =>
    rw [moves_appended ha, if_neg (fun hh => nomatch hh.2)]
    rfl
  | ignored _ _ _ ha =>
    rw [moves_appended ha, if_neg (fun hh => nomatch hh.2)]
    rfl
  | applied _ _ _ hr hm ha =>
    rw [moves_appended ha, moves_of_entries hm.entries, moves_remarked hr]
    simp only [Answer.moves, Outcome.of, Outcome.isApplied, transitionRecord, and_true, Bool.true_and]
    split <;> simp_all
  | paid _ hr =>
    rw [moves_remarked hr]
    rfl

theorem moves_duplicate (h : x.isDuplicate = true) (loanId : String) : x.moves loanId = false := by
  cases x with
  | handled o =>
    obtain ⟨_, _, _, c⟩ := o
    cases c with
    | duplicate => rfl
    | applied => cases h
    | ignored => cases h
  | _ => cases h

/-- Whether a turn is a call that is answered by a move of a loan. -/
def turnMoves (loanId : String) (d : Desk) (y : Turn) : Bool :=
  match y.job with
  | .call g c => ((g.serve c).answer (d.prepared y.clock y.disturbance)).toOption.any (·.moves loanId)
  | .block _ => false

def movesIn (loanId : String) : Desk → List Turn → Nat
  | _, [] => 0
  | d, y :: ts => (if turnMoves loanId d y then 1 else 0) + movesIn loanId (d.turn y) ts

/-- A turn records a move of a loan exactly when it is answered by one. -/
theorem turn_moves {y : Turn} (hy : y.IsCall) (d : Desk) (loanId : String) :
    (d.turn y).store.moves loanId = d.store.moves loanId + if turnMoves loanId d y then 1 else 0 := by
  cases hy with
  | @call clock z g c hz =>
    have served := serve_served (d := d.prepared clock z) g c hz
    have counted : turnMoves loanId d ⟨clock, z, .call g c⟩ =
      ((g.serve c).answer (d.prepared clock z)).toOption.any (·.moves loanId) := rfl
    rw [turn_call, counted, Work.answer]
    generalize hr : g.serve c (d.prepared clock z) = r at served
    cases served with
    | failed hs =>
      rw [Work.desk_of_error hr, hs]
      rfl
    | @duplicate x _ hdup hs =>
      rw [Work.desk_of_ok hr, hs]
      change _ = _ + if x.moves loanId then 1 else 0
      rw [moves_duplicate hdup]
      rfl
    | told _ ht =>
      rw [Work.desk_of_ok hr]
      exact ht.moves loanId

/-- As many moves of a loan are recorded in a run as it is answered by. -/
theorem movesIn_eq (hts : ∀ y ∈ ts, y.IsCall) (loanId : String) :
    ∀ d : Desk, (d.after ts).store.moves loanId = d.store.moves loanId + movesIn loanId d ts := by
  induction ts with
  | nil => exact fun _ => rfl
  | cons y ts ih =>
    intro d
    have step := turn_moves (hts y List.mem_cons_self) d loanId
    have rest := ih (fun z hz => hts z (List.mem_cons_of_mem _ hz)) (d.turn y)
    rw [movesIn, ← Nat.add_assoc, ← step]
    exact rest

/-! ## States -/

/-- Every loan is in a state that the definition declares. -/
def Declared (x : Definition) (t : Tables) : Prop :=
  ∀ {loanId l}, t.loan? loanId = some l → (x.find? l.state).isSome

/-- Every call under a valid definition keeps that. -/
theorem Told.declared (h : g.Told t c x t') (hg : g.definition.isValid = true) (ht : Declared g.definition t) :
    Declared g.definition t' := by
  intro loanId l hl
  cases h with
  | opened _ ha =>
    rw [ha.loan?, loan?_added] at hl
    rcases Option.or_eq_some_iff.mp hl with hl | ⟨-, hl⟩
    · exact ht hl
    · split at hl
      · cases hl
        exact Definition.isSome_initial hg
      · cases hl
  | ignored _ _ _ ha =>
    rw [ha.loan?] at hl
    exact ht hl
  | @applied e _ _ _ _ _ _ _ _ hrow hs htr hr hm ha =>
    rw [ha.loan?] at hl
    by_cases ho : loanId = e.loanId
    · subst ho
      obtain ⟨l', hl', hstate⟩ := hm.loan ((loan?_of_loans hr.loans _).trans hrow)
      cases hl'.symm.trans hl
      rw [hstate]
      exact Definition.isSome_to hg hs htr
    · rw [hm.other ho, loan?_of_loans hr.loans] at hl
      exact ht hl
  | paid _ hr =>
    rw [loan?_of_loans hr.loans] at hl
    exact ht hl

/-! ## Events that were applied -/

/-- The loan of an event is open, and a move is recorded under its key. -/
structure Recorded (t : Tables) (e : Event) (a b : String) : Prop where
  loan : ∃ l, t.loan? e.loanId = some l
  entry : ∃ entry, t.entryByKey? e.key = some entry ∧ entry.move? = some (a, b)

theorem entryByKey?_of_free (h : t.isTaken entry = false) (hk : entry.key = some key) : t.entryByKey? key = none := by
  simpa [Tables.isTaken, hk] using (Bool.or_eq_false_iff.mp h).2

/-- The move that answers an event is recorded under its key. -/
theorem Told.recorded {rs : List ActionResult}
    (h : g.Told t (.handle e) (.handled (Outcome.of e (.applied a b rs))) t') :
    Recorded t' e a b := by
  cases h with
  | applied hrow _ _ hr hm ha =>
    obtain ⟨l, hl, -⟩ := hm.loan ((loan?_of_loans hr.loans _).trans hrow)
    refine ⟨⟨l, (ha.loan? _).trans hl⟩, _, ?_, move?_appended ha⟩
    rw [ha.entryByKey?, entryByKey?_of_free ha.isFree ha.key, Option.none_or]
    exact if_pos rfl

theorem Recorded.told (h : Recorded t e a b) (ht : g.Told t c x t') : Recorded t' e a b := by
  obtain ⟨⟨l, hl⟩, entry, he, hm⟩ := h
  exact ⟨ht.loan_stays hl, entry, entryByKey?_stays (told_keeping ht) he, hm⟩

theorem recorded_of_answer {rs : List ActionResult} (hd : d.IsHonest)
    (h : (g.handle e).answer d = .ok (Outcome.of e (.applied a b rs))) :
    Recorded ((g.serve (.handle e)).desk d).store e a b := by
  obtain ⟨d', hr⟩ := Work.ok_of_answer h
  have served := serve_served g (.handle e) hd
  have hr : g.serve (.handle e) d = .ok (.handled (Outcome.of e (.applied a b rs))) d' := Work.map_of_ok hr
  rw [hr] at served
  rw [Work.desk_of_ok hr]
  cases served with
  | duplicate hdup _ => cases hdup
  | told _ ht => exact ht.recorded

theorem Applies.recorded (h : Applies g e a b d ts) (hts : ∀ y ∈ ts, y.IsCall) :
    Recorded (d.after ts).store e a b := by
  induction h with
  | @now d clock z rs ts hr =>
    obtain ⟨hz⟩ := hts _ List.mem_cons_self
    refine run_keeps (p := fun _ => True) (fun _ hP ht => Recorded.told hP ht)
      (fun y hy => (hts y (List.mem_cons_of_mem _ hy)).any) (d := d.turn _) ?_
    rw [turn_call]
    exact recorded_of_answer hz hr
  | later _ ih => exact ih fun y hy => hts y (List.mem_cons_of_mem _ hy)

/-- The lock that an event was applied under can be held whenever none is held. -/
theorem Applies.free (h : Applies g e a b d ts) (hts : ∀ y ∈ ts, y.IsCall) :
    (d.locks.hold e.loanId g.lockTimeout).2 = .ok () := by
  induction h with
  | @now d clock z rs ts hr =>
    cases hl : (d.locks.hold e.loanId g.lockTimeout).2 with
    | ok u => rfl
    | error r =>
      obtain ⟨err, hrefused⟩ := handle_refused g e r
      obtain ⟨log, hrun⟩ := hrefused (d.prepared clock z) hl
      rw [Work.answer, hrun] at hr
      cases hr
  | @later d x ts _ ih =>
    rw [← turn_locks (hts x List.mem_cons_self) d]
    exact ih fun y hy => hts y (List.mem_cons_of_mem _ hy)

/-- Where nothing disturbs it, an event that was applied is answered by that move, and the rows stay. -/
theorem Recorded.answered (h : Recorded d.store e a b)
    (ht : ∀ l, d.store.loan? e.loanId = some l → (g.definition.find? l.state).isSome) (hd : d.IsCalm)
    (hl : (d.locks.hold e.loanId g.lockTimeout).2 = .ok ()) :
    ∃ d', g.handle e d = .ok (Outcome.of e (.duplicate (.text a) (.text b))) d' ∧ d'.store = d.store := by
  obtain ⟨⟨l, hrow⟩, entry, he, hm⟩ := h
  obtain ⟨s, hs⟩ := Option.isSome_iff_exists.mp (ht l hrow)
  have ready : ((d.bound (eventContext e)).entered e.loanId g.lockTimeout).IsReady :=
    ⟨⟨hd.faults, hd.rival, hd.checks⟩, rfl⟩
  obtain ⟨d₁, hdecide, hs₁⟩ := decide_recorded (weigh_recorded ready rfl hrow hs he) hm
  obtain ⟨d', hr, hs', -⟩ := handle_of_ok hd hl hdecide
  exact ⟨d', hr, hs'.trans hs₁⟩

theorem decision_of_reply {o : Decision} (h : Reply.ofDecision? o = some (.applied a b)) :
    ∃ rs, o = .applied a b rs := by
  unfold Reply.ofDecision? at h
  split at h
  · cases h
    exact ⟨_, rfl⟩
  all_goals cases h

/-- An event that is answered as the machine answers a move is answered by that move. -/
theorem answer_of_reply (hd : d.IsHonest) (h : Reply.of? ((g.serve (.handle e)).answer d) = some (.applied a b)) :
    ∃ rs, (g.handle e).answer d = .ok (Outcome.of e (.applied a b rs)) := by
  have served := serve_served g (.handle e) hd
  rw [Work.answer] at h
  generalize hr : g.serve (.handle e) d = r at served h
  cases served with
  | failed =>
    obtain ⟨k, -, hk⟩ := Option.map_eq_some_iff.mp h
    cases hk
  | @duplicate x d' hdup _ =>
    obtain ⟨o, -, rfl⟩ := Work.map_ok hr
    obtain ⟨rs, hrs⟩ := decision_of_reply h
    simp [Answer.isDuplicate, hrs] at hdup
  | @told x d' _ ht =>
    obtain ⟨o, handled, rfl⟩ := Work.map_ok hr
    obtain ⟨rs, hrs⟩ := decision_of_reply h
    refine ⟨rs, ?_⟩
    rw [Work.answer, handled]
    cases ht with
    | applied => exact congrArg (fun c => Except.ok (Outcome.of e c)) hrs
    | ignored => cases hrs

/-! ## Runs -/

/-- Every event moves its loan at most once. In a run of calls under a valid definition, however they were
disturbed, an event that was applied is answered by that move whenever it comes again undisturbed, and the
rows stay. In every run, no key is recorded twice, only moves are recorded under one, and as many moves of
a loan are recorded as it was answered by. -/
theorem applied_once (d : Desk) (ts : List Turn) (hd : d.IsNew) (hts : ∀ y ∈ ts, y.IsCall) :
    (∀ x : Definition, x.isValid = true → (∀ y ∈ ts, y.IsCallOf (·.definition = x)) →
      ∀ g e a b, Applies g e a b d ts → ∀ (g' : Engine) (e' : Event) (clock : Clock), g'.definition = x →
        g'.lockTimeout = g.lockTimeout → e'.loanId = e.loanId → e'.type = e.type → e'.identity = e.identity →
          ∃ d', g'.handle e' ((d.after ts).prepared clock .none) =
              .ok ⟨e.loanId, e.type, e.key, .duplicate (.text a) (.text b)⟩ d' ∧
            d'.store = (d.after ts).store) ∧
    Once (d.after ts).store ∧
    ∀ loanId, (d.after ts).store.moves loanId = movesIn loanId d ts := by
  refine ⟨fun x hx hall g e a b happ g' e' clock hg hl hloan htype hid => ?_, ?_, fun loanId => ?_⟩
  · have hkey : e'.key = e.key := by rw [Event.key, Event.key, hloan, htype, hid]
    obtain ⟨hopen, entry, he, hm⟩ := happ.recorded hts
    have recorded : Recorded (d.after ts).store e' a b := ⟨hloan ▸ hopen, entry, hkey ▸ he, hm⟩
    have declared : Declared g'.definition (d.after ts).store := by
      refine run_keeps (P := Declared g'.definition) (fun {g₁ c₁ x₁ t₁ t₂} hg₁ hP ht => ?_) hall ?_
      · obtain rfl : g₁.definition = x := hg₁
        rw [hg] at hP ⊢
        exact ht.declared hx hP
      · intro loanId l hrow
        rw [hd.store] at hrow
        cases hrow
    have free : ((d.after ts).locks.hold e'.loanId g'.lockTimeout).2 = .ok () := by
      rw [after_locks hts, hloan, hl]
      exact happ.free hts
    have answered := Recorded.answered (d := (d.after ts).prepared clock .none) recorded
      (fun _ hrow => declared hrow) ⟨rfl, rfl, rfl⟩ free
    rwa [Outcome.of, hloan, htype, hkey] at answered
  · exact run_keeps (p := fun _ => True) (fun _ hP ht => ht.once hP) (fun y hy => (hts y hy).any)
      (hd.store ▸ once_empty)
  · rw [movesIn_eq hts, hd.store]
    exact Nat.zero_add _

/-- A loan is opened and an event moves it. -/
def loopedOnce : List Turn :=
  [⟨noon.clock, .none, .call looping (.open_ "L1" "F1" systemActor)⟩,
    ⟨noon.clock, .none, .call looping (.handle knock)⟩]

theorem loopedOnce_isCallOf : ∀ y ∈ loopedOnce, y.IsCallOf (·.definition = looping.definition) := by
  intro y hy
  simp only [loopedOnce, List.mem_cons, List.not_mem_nil, or_false] at hy
  rcases hy with rfl | rfl <;> exact .call Disturbance.none_isHonest rfl

def openedAtNoon : List Turn :=
  [⟨noon.clock, .none, .call looping (.open_ "L1" "F1" systemActor)⟩]

theorem knock_applied : ∃ rs, (looping.handle knock).answer ((noon.after openedAtNoon).prepared noon.clock .none) =
    .ok (Outcome.of knock (.applied "open" "open" rs)) := by
  have start : IsOpen noon (2 * (mostActions looping.definition + 1)) :=
    isOpen_of_isNew ⟨rfl, rfl⟩ (IdSupply.numbered_isFresh 0) (by decide)
  have sound : looping.IsSound := ⟨by decide, _, rfl⟩
  have timely : ∀ x ∈ [(noon.clock, Call.open_ "L1" "F1" systemActor), (noon.clock, .handle knock)],
      x.1.IsTimely ∧ x.2.IsTimely := by
    intro x hx
    simp only [List.mem_cons, List.not_mem_nil, or_false] at hx
    rcases hx with rfl | rfl
    · exact ⟨noon_isTimely, trivial⟩
    · exact ⟨noon_isTimely, knock_isTimely⟩
  obtain ⟨-, r, m, -, hm, -, r', m', hr', hm', -⟩ := IsOpen.follows sound timely start
  -- the machine has opened the loan, and answers the event by the move
  cases List.mem_singleton.mp hm
  cases List.mem_singleton.mp hm'
  obtain ⟨rs, hrs⟩ := answer_of_reply (fun _ _ h => by cases h) hr'
  rw [← turn_call] at hrs
  rw [openedAtNoon, after_singleton]
  exact ⟨rs, hrs⟩

theorem loopedOnce_applies : Applies looping knock "open" "open" noon loopedOnce := by
  obtain ⟨rs, h⟩ := knock_applied
  rw [openedAtNoon, after_singleton] at h
  exact .later (.now h)

theorem applied_once_at_noon :
    noon.IsNew ∧ looping.definition.isValid = true ∧
      (∃ d', looping.handle knock ((noon.after loopedOnce).prepared noon.clock .none) =
          .ok ⟨"L1", "knock", "L1:knock:1", .duplicate (.text "open") (.text "open")⟩ d' ∧
        d'.store = (noon.after loopedOnce).store) ∧
      (noon.after loopedOnce).store.moves "L1" = movesIn "L1" noon loopedOnce := by
  have valid : looping.definition.isValid = true := by decide
  have once := applied_once noon loopedOnce ⟨rfl, rfl⟩ fun y hy => (loopedOnce_isCallOf y hy).isCall
  exact ⟨⟨rfl, rfl⟩, valid, once.1 _ valid loopedOnce_isCallOf _ _ _ _ loopedOnce_applies looping knock
    noon.clock rfl rfl rfl rfl rfl, once.2.2 "L1"⟩

end Engine

end LoanLedger
