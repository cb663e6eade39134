import LoanLedger.Proofs.Sharing

/-!
# Who leaves a lock leaves no trace among others

* `Serves ps x qs` : what a step does where each id just has a lock, with nothing to count, to make or to reclaim;
* `IsSound.step_iff` : the table allows just that;
* `IsSound.after_without` : so the steps of one can be left out, and the others get as far;
* `IsSound.seen_without` : what they see is the same while that one does not hold a lock;
* `IsSound.hold`, `IsSound.leave` : to hold a lock and to leave it are such steps, when nobody interrupts;
* `locks_shared_safely` : the table is in order after all steps of any holders in any order.
-/

namespace LoanLedger.Locks

variable {s t : Crowd} {x : Step} {who w a : Nat} {id : String} {g h : Holder} {c : Cell} {p : Phase}
    {ps qs : List Holder}

/-! ## Locks without a table -/

def Holder.bare (h : Holder) : Holder := { h with cell := 0 }

@[simp] theorem Holder.bare_who (h : Holder) : h.bare.who = h.who := rfl
@[simp] theorem Holder.bare_id (h : Holder) : h.bare.id = h.id := rfl
@[simp] theorem Holder.bare_phase (h : Holder) : h.bare.phase = h.phase := rfl
@[simp] theorem Holder.bare_isIn (h : Holder) : h.bare.isIn = h.isIn := rfl

/-- The holders, with one at another point of its way. -/
def rephase (ps : List Holder) (who : Nat) (p : Phase) : List Holder :=
  ps.map fun h => if h.who = who then { h with phase := p } else h

/-- What a step does where each id has a lock that one may hold at a time. -/
inductive Serves (ps : List Holder) : Step → List Holder → Prop where
  | arrived {who : Nat} {id : String} {timeout : Value} :
    (∀ h ∈ ps, h.who ≠ who) → Serves ps (.arrive who id timeout) (ps ++ [⟨who, id, timeout, 0, .waiting⟩])
  | acquired {who : Nat} {h : Holder} :
    h ∈ ps → h.who = who → h.phase = .waiting → h.isPatient = true →
    (∀ g ∈ ps, g.phase = .holding → g.id ≠ h.id) → Serves ps (.acquire who) (rephase ps who .holding)
  | gaveUp {who : Nat} {h : Holder} {e : Error} :
    h ∈ ps → h.who = who → h.phase = .waiting → h.refusal? = some e →
    Serves ps (.giveUp who) (rephase ps who (.leaving (.refused e)))
  | released {who : Nat} {isRaised : Bool} {h : Holder} :
    h ∈ ps → h.who = who → h.phase = .holding →
    Serves ps (.release who isRaised) (rephase ps who (.leaving (.left isRaised)))
  | left {who : Nat} {h : Holder} {r : Ending} :
    h ∈ ps → h.who = who → h.phase = .leaving r → Serves ps (.checkin who) (rephase ps who (.gone r))

namespace Crowd

/-- Those who have come, whichever cells they have. -/
def people (s : Crowd) : List Holder := s.holders.map (·.bare)

theorem mem_people : h ∈ s.people ↔ ∃ g ∈ s.holders, g.bare = h := List.mem_map

theorem people_move (s : Crowd) (who : Nat) (p : Phase) : (s.move who p).people = rephase s.people who p := by
  rw [people, move, rephase, people, List.map_map, List.map_map]
  refine List.map_congr_left fun h _ => ?_
  by_cases hw : h.who = who
  · rw [Function.comp_apply, Function.comp_apply, if_pos hw, if_pos (show h.bare.who = who from hw)]
    rfl
  · rw [Function.comp_apply, Function.comp_apply, if_neg hw, if_neg (show ¬ h.bare.who = who from hw)]

theorem people_arrived (s : Crowd) (cells : List Cell) (table : List (String × Nat)) (timeout : Value) :
    (⟨cells, table, s.holders ++ [⟨who, id, timeout, a, .waiting⟩]⟩ : Crowd).people =
      s.people ++ [⟨who, id, timeout, 0, .waiting⟩] := List.map_append

theorem users_eq (s : Crowd) (id : String) : s.users id = s.people.countP fun h => h.isIn && h.id = id := by
  rw [people, List.countP_map]
  rfl

theorem holding_eq (s : Crowd) (id : String) :
    s.holding id = s.people.countP fun h => h.phase = .holding && h.id = id := by
  rw [people, List.countP_map]
  rfl

theorem holding_eq_zero_iff : s.holding id = 0 ↔ ∀ g ∈ s.people, g.phase = .holding → g.id ≠ id := by
  rw [holding_eq, List.countP_eq_zero]
  simp

theorem IsSound.find?_of_people (hs : s.IsSound) (hm : h ∈ s.people) (hw : h.who = who) :
    ∃ g, s.find? who = some g ∧ g.bare = h := by
  obtain ⟨g, hg, rfl⟩ := mem_people.mp hm
  cases hf : s.find? who with
  | none => exact absurd hw (find?_none hf g hg)
  | some g' =>
    have same : g'.who = g.who := .trans (by simpa using List.find?_some hf) hw.symm
    exact ⟨g', rfl, congrArg Holder.bare (List.inj_on_of_nodup_map hs.names (List.mem_of_find?_eq_some hf) hg same)⟩

theorem find?_mem (hf : s.find? who = some h) : h.bare ∈ s.people ∧ h.bare.who = who :=
  ⟨List.mem_map_of_mem (List.mem_of_find?_eq_some hf), by simpa using List.find?_some hf⟩

theorem IsSound.free_iff (hs : s.IsSound) (hm : h ∈ s.holders) (hin : h.isIn = true)
    (hc : s.cells[h.cell]? = some c) :
    c.isTaken = false ↔ ∀ g ∈ s.people, g.phase = .holding → g.id ≠ h.id := by
  obtain ⟨c', hc', -, taken⟩ := hs.entry (hs.shared hm hin)
  cases hc.symm.trans hc'
  rw [← holding_eq_zero_iff, ← taken]
  cases c.isTaken <;> simp

/-- What the table does, locks do. -/
theorem IsSound.serves (hs : s.IsSound) (hx : s.Takes x t) : Serves s.people x t.people := by
  have fresh {who : Nat} (hf : s.find? who = none) : ∀ h ∈ s.people, h.who ≠ who := fun h hm => by
    obtain ⟨g, hg, rfl⟩ := mem_people.mp hm
    exact find?_none hf g hg
  cases hx with
  | joined hf ht hc => exact people_arrived .. ▸ .arrived (fresh hf)
  | opened hf ht => exact people_arrived .. ▸ .arrived (fresh hf)
  | acquired hf hc hp hw hfree =>
    obtain ⟨hm, hwho⟩ := find?_mem hf
    have free := (hs.free_iff (List.mem_of_find?_eq_some hf) (isIn_of_waiting hp) hc).mp hfree
    exact people_move .. ▸ .acquired hm hwho hp hw free
  | gaveUp hf hp he =>
    obtain ⟨hm, hwho⟩ := find?_mem hf
    exact people_move .. ▸ .gaveUp hm hwho hp he
  | released hf hc hp ht =>
    obtain ⟨hm, hwho⟩ := find?_mem hf
    exact people_move .. ▸ .released hm hwho hp
  | left hf hp hc hr =>
    obtain ⟨hm, hwho⟩ := find?_mem hf
    exact people_move .. ▸ .left hm hwho hp
  | @reclaimed who h r c hf hp hc hr ht =>
    obtain ⟨hm, hwho⟩ := find?_mem hf
    have moved := people_move (s.put h.cell { c with refs := c.refs - 1 }) who (.gone r)
    exact moved.symm ▸ .left hm hwho hp

/-- What locks do, the table does. -/
theorem IsSound.takes_of_serves (hs : s.IsSound) (hx : Serves s.people x qs) :
    ∃ t, s.Takes x t ∧ t.people = qs := by
  cases hx with
  | @arrived who id timeout hw =>
    have fresh : s.find? who = none := List.find?_eq_none.mpr fun h hm => by
      simpa using hw h.bare (mem_people.mpr ⟨h, hm, rfl⟩)
    cases ht : s.table.lookup id with
    | none => exact ⟨_, .opened fresh ht, people_arrived ..⟩
    | some a =>
      obtain ⟨c, hc, -⟩ := hs.entry ht
      exact ⟨_, .joined fresh ht hc, people_arrived ..⟩
  | acquired hm hw hp hpat free =>
    obtain ⟨h, hf, rfl⟩ := hs.find?_of_people hm hw
    have hin : h.isIn = true := isIn_of_waiting hp
    obtain ⟨c, hc⟩ := hs.cell hf hin
    have hfree := (hs.free_iff (List.mem_of_find?_eq_some hf) hin hc).mpr free
    exact ⟨_, .acquired hf hc hp hpat hfree, people_move ..⟩
  | gaveUp hm hw hp he =>
    obtain ⟨h, hf, rfl⟩ := hs.find?_of_people hm hw
    exact ⟨_, .gaveUp hf hp he, people_move ..⟩
  | released hm hw hp =>
    obtain ⟨h, hf, rfl⟩ := hs.find?_of_people hm hw
    have hin : h.isIn = true := isIn_of_holding hp
    obtain ⟨c, hc⟩ := hs.cell hf hin
    have taken : c.isTaken = true := eq_true_of_ne_false fun hfree =>
      (hs.free_iff (List.mem_of_find?_eq_some hf) hin hc).mp hfree h.bare hm hp rfl
    exact ⟨_, .released hf hc hp taken, people_move ..⟩
  | @left who h r hm hw hp =>
    obtain ⟨h, hf, rfl⟩ := hs.find?_of_people hm hw
    have hin : h.isIn = true := isIn_of_leaving hp
    obtain ⟨c, hc⟩ := hs.cell hf hin
    by_cases hr : c.refs - 1 = 0
    · have ht := Option.isSome_iff_exists.mpr ⟨_, hs.shared (List.mem_of_find?_eq_some hf) hin⟩
      exact ⟨_, .reclaimed hf hp hc hr ht, people_move ..⟩
    · exact ⟨_, .left hf hp hc hr, people_move ..⟩

theorem IsSound.step_iff (hs : s.IsSound) : (∃ t, s.step x = some t ∧ t.people = qs) ↔ Serves s.people x qs := by
  constructor
  · rintro ⟨t, ht, rfl⟩
    exact hs.serves (takes_of_step ht)
  · intro hx
    obtain ⟨t, ht, rfl⟩ := hs.takes_of_serves hx
    exact ⟨t, step_of_takes ht, rfl⟩

end Crowd

/-! ## Without one of them -/

def others (w : Nat) (ps : List Holder) : List Holder := ps.filter (·.who ≠ w)

theorem mem_others : h ∈ others w ps ↔ h ∈ ps ∧ h.who ≠ w := by simp [others]

theorem others_rephase_self (ps : List Holder) (w : Nat) (p : Phase) : others w (rephase ps w p) = others w ps := by
  induction ps with
  | nil => rfl
  | cons h ps ih =>
    by_cases hw : h.who = w <;> simpa [others, rephase, hw] using ih

theorem others_rephase (ps : List Holder) (hw : who ≠ w) (p : Phase) :
    others w (rephase ps who p) = rephase (others w ps) who p := by
  induction ps with
  | nil => rfl
  | cons h ps ih =>
    by_cases hh : h.who = who
    · simpa [others, rephase, hh, hw] using ih
    · by_cases hw' : h.who = w
      · simpa [others, rephase, hw', Ne.symm hw] using ih
      · simpa [others, rephase, hh, hw'] using ih

/-- With one less to wait for, the others can take the same steps. -/
theorem Serves.without (hx : Serves ps x qs) (hne : x.who ≠ w) : Serves (others w ps) x (others w qs) := by
  have stays {h : Holder} {who : Nat} (hm : h ∈ ps) (hh : h.who = who) (hne : who ≠ w) : h ∈ others w ps :=
    mem_others.mpr ⟨hm, hh ▸ hne⟩
  cases hx with
  | @arrived who id timeout fresh =>
    have added : others w (ps ++ [⟨who, id, timeout, 0, .waiting⟩]) =
        others w ps ++ [⟨who, id, timeout, 0, .waiting⟩] := by
      rw [others, List.filter_append, List.filter_cons_of_pos (by simpa using (show who ≠ w from hne))]
      rfl
    rw [added]
    exact .arrived fun h hm => fresh h (mem_others.mp hm).1
  | @acquired who h hm hh hp hpat free =>
    rw [others_rephase ps (show who ≠ w from hne)]
    exact .acquired (stays hm hh hne) hh hp hpat fun g hg => free g (mem_others.mp hg).1
  | @gaveUp who h e hm hh hp he =>
    rw [others_rephase ps (show who ≠ w from hne)]
    exact .gaveUp (stays hm hh hne) hh hp he
  | @released who isRaised h hm hh hp =>
    rw [others_rephase ps (show who ≠ w from hne)]
    exact .released (stays hm hh hne) hh hp
  | @left who h r hm hh hp =>
    rw [others_rephase ps (show who ≠ w from hne)]
    exact .left (stays hm hh hne) hh hp

theorem Serves.others_eq (hx : Serves ps x qs) : others x.who qs = others x.who ps := by
  cases hx with
  | arrived =>
    rw [others, List.filter_append, List.filter_cons_of_neg (by simp [Step.who]), List.filter_nil, List.append_nil]
    rfl
  | _ => exact others_rephase_self ..

namespace Crowd

/-- The same run without the steps of one: the others get as far. -/
theorem IsSound.after_without (hs : s.IsSound) (ht : t.IsSound) (hp : t.people = others w s.people) {xs : List Step}
    {s' : Crowd} (hx : s.after xs = some s') :
    ∃ t', t.after (xs.filter (·.who ≠ w)) = some t' ∧ t'.people = others w s'.people := by
  -- the two runs stay in step: the people of one are those of the other without `w`
  induction xs generalizing s t with
  | nil =>
    cases hx
    exact ⟨t, rfl, hp⟩
  | cons x xs ih =>
    rw [Crowd.after, List.foldlM_cons, Option.bind_eq_bind, Option.bind_eq_some_iff] at hx
    obtain ⟨s₁, h₁, hx⟩ := hx
    have taken := takes_of_step h₁
    have served := hs.serves taken
    by_cases hw : x.who = w
    · rw [List.filter_cons_of_neg (by simpa using hw)]
      subst hw
      exact ih (hs.takes taken) ht (hp.trans served.others_eq.symm) hx
    · rw [List.filter_cons_of_pos (by simpa using hw)]
      obtain ⟨t₁, taken', hp₁⟩ := ht.takes_of_serves (hp ▸ served.without hw)
      obtain ⟨t', h', hp'⟩ := ih (hs.takes taken) (ht.takes taken') hp₁ hx
      refine ⟨t', ?_, hp'⟩
      rw [Crowd.after, List.foldlM_cons, step_of_takes taken']
      exact h'

theorem countP_others {f : Holder → Bool} (hf : ∀ h ∈ ps, h.who = w → f h = false) :
    (others w ps).countP f = ps.countP f := by
  rw [others, List.countP_filter]
  refine List.countP_congr fun h hm => ?_
  by_cases hw : h.who = w
  · simp [hw, hf h hm hw]
  · simp [hw]

theorem IsSound.same (hs : s.IsSound) (hm : h ∈ s.holders) (hg : g ∈ s.people) (hw : g.who = h.who) :
    g = h.bare := by
  obtain ⟨g, hg', rfl⟩ := mem_people.mp hg
  rw [List.inj_on_of_nodup_map hs.names hg' hm hw]

theorem IsSound.view_isHeld (hs : s.IsSound) (id : String) : s.view.isHeld id = decide (0 < s.holding id) := by
  rw [isHeld, hs.view_entry?, shown?]
  split
  · rfl
  · next hz =>
    rw [holding_eq_zero (Nat.eq_zero_of_not_pos hz)]
    rfl

/-- What the others see of the table is the same without one who does not hold a lock, and all of it once that one has
left. -/
theorem IsSound.seen_without (hs : s.IsSound) (ht : t.IsSound) (hm : h ∈ s.holders)
    (hp : t.people = others h.who s.people) :
    (h.phase ≠ .holding → ∀ id, t.view.isHeld id = s.view.isHeld id) ∧
      ∀ id, id ≠ h.id ∨ h.isIn = false → t.view.entry? id = s.view.entry? id := by
  have alone {f : Holder → Bool} (hf : f h.bare = false) : t.people.countP f = s.people.countP f := by
    rw [hp]
    refine countP_others fun g hg hw => ?_
    rwa [hs.same hm hg hw]
  have held (id : String) (hh : h.phase ≠ .holding ∨ id ≠ h.id) : t.holding id = s.holding id := by
    rw [holding_eq, holding_eq]
    refine alone ?_
    rcases hh with hout | hid
    · simp [hout]
    · simp [Ne.symm hid]
  have used (id : String) (hh : h.isIn = false ∨ id ≠ h.id) : t.users id = s.users id := by
    rw [users_eq, users_eq]
    refine alone ?_
    rcases hh with hout | hid
    · simp [hout]
    · simp [Ne.symm hid]
  have out (hin : h.isIn = false) : h.phase ≠ .holding := fun hh => by
    rw [isIn_of_holding hh] at hin
    cases hin
  refine ⟨fun hh id => ?_, fun id hh => ?_⟩
  · rw [hs.view_isHeld, ht.view_isHeld, held id (.inl hh)]
  · rw [hs.view_entry?, ht.view_entry?, held id (hh.symm.imp_left out), used id hh.symm]

end Crowd

/-! ## Undisturbed -/

namespace Crowd

/-- The steps that locks allow are taken, and do at the table what the functions of the table do. -/
theorem IsSound.step_of_serves (hs : s.IsSound) (hx : Serves s.people x qs) (hid : s.idOf x = some id) :
    ∃ t, s.step x = some t ∧ t.IsSound ∧ t.people = qs ∧ t.view = x.atTable id s.view := by
  obtain ⟨t, taken, hp⟩ := hs.takes_of_serves hx
  obtain ⟨id', about, view⟩ := hs.view_takes taken
  cases hid.symm.trans about
  exact ⟨t, step_of_takes taken, hs.takes taken, hp, view⟩

theorem IsSound.find?_id (hs : s.IsSound) (hm : h ∈ s.people) (hw : h.who = who) :
    (s.find? who).map (·.id) = some h.id := by
  obtain ⟨g, hf, rfl⟩ := hs.find?_of_people hm hw
  rw [hf]
  rfl

/-- The steps of an attempt to hold a lock, as it goes. -/
def stepsOf (who : Nat) (id : String) (timeout : Value) : Except Error Unit → List Step
  | .ok _ => [.arrive who id timeout, .acquire who]
  | .error _ => [.arrive who id timeout, .giveUp who, .checkin who]

variable {timeout : Value} {e : Error}

theorem IsSound.arrive (hs : s.IsSound) (fresh : ∀ h ∈ s.people, h.who ≠ who) (id : String) (timeout : Value) :
    ∃ t, s.step (.arrive who id timeout) = some t ∧ t.IsSound ∧
      ⟨who, id, timeout, 0, .waiting⟩ ∈ t.people ∧ t.view = s.view.checkout id := by
  have arrived : Serves s.people (.arrive who id timeout) _ := .arrived fresh
  obtain ⟨t, ht, sound, people, view⟩ := hs.step_of_serves arrived rfl
  exact ⟨t, ht, sound, people ▸ List.mem_append_right _ List.mem_cons_self, view⟩

theorem IsSound.hold_ok (hs : s.IsSound) (fresh : ∀ h ∈ s.people, h.who ≠ who)
    (hok : (s.view.hold id timeout).2 = .ok ()) :
    ∃ t, s.after [.arrive who id timeout, .acquire who] = some t ∧ t.view = (s.view.hold id timeout).1 := by
  obtain ⟨s₁, h₁, sound₁, here, view₁⟩ := hs.arrive fresh id timeout
  unfold hold at hok ⊢
  dsimp only at hok ⊢
  split at hok
  · cases hok
  · next patience hpat =>
    split at hok
    · cases hok
    · next hfree =>
      have isPatient : (⟨who, id, timeout, 0, .waiting⟩ : Holder).isPatient = true := by
        rw [Holder.isPatient, hpat]; rfl
      have free : s₁.holding id = 0 := by
        rw [Bool.not_eq_true, ← view₁, sound₁.view_isHeld] at hfree
        simpa using hfree
      obtain ⟨t, ht, -, -, view⟩ := sound₁.step_of_serves
        (.acquired here rfl rfl isPatient (holding_eq_zero_iff.mp free)) (sound₁.find?_id here rfl)
      refine ⟨t, ?_, ?_⟩
      · simp [Crowd.after, h₁, ht]
      · rw [if_neg hfree, view, view₁]
        rfl

theorem mem_rephase (hm : h ∈ ps) (hw : h.who = who) (p : Phase) : { h with phase := p } ∈ rephase ps who p :=
  List.mem_map.mpr ⟨h, hm, if_pos hw⟩

theorem IsSound.hold_refused (hs : s.IsSound) (fresh : ∀ h ∈ s.people, h.who ≠ who)
    (he : (s.view.hold id timeout).2 = .error e) (hne : e ≠ .stuck) :
    ∃ t, s.after [.arrive who id timeout, .giveUp who, .checkin who] = some t ∧
      t.view = (s.view.hold id timeout).1 := by
  obtain ⟨s₁, h₁, sound₁, here, view₁⟩ := hs.arrive fresh id timeout
  have isRefused : (⟨who, id, timeout, 0, .waiting⟩ : Holder).refusal? = some e ∧
      (s.view.hold id timeout).1 = (s.view.checkout id).checkin id := by
    unfold hold at he ⊢
    dsimp only at he ⊢
    rw [Holder.refusal?]
    split at he
    · next hpat =>
      cases he
      rw [hpat]
      exact ⟨rfl, rfl⟩
    · next patience hpat =>
      split at he
      · next hheld =>
        rw [if_pos hheld]
        cases patience with
        | forever =>
          cases he
          exact absurd rfl hne
        | limited =>
          cases he
          rw [hpat]
          exact ⟨rfl, rfl⟩
      · cases he
  obtain ⟨s₂, h₂, sound₂, people₂, view₂⟩ :=
    sound₁.step_of_serves (.gaveUp here rfl rfl isRefused.1) (sound₁.find?_id here rfl)
  have here₂ : ⟨who, id, timeout, 0, .leaving (.refused e)⟩ ∈ s₂.people :=
    people₂ ▸ mem_rephase here rfl _
  obtain ⟨t, ht, -, -, view⟩ := sound₂.step_of_serves (.left here₂ rfl rfl) (sound₂.find?_id here₂ rfl)
  refine ⟨t, by simp [Crowd.after, h₁, h₂, ht], ?_⟩
  rw [isRefused.2, view, view₂, view₁]
  rfl

/-- When nobody interrupts, an attempt to hold a lock is these steps, unless it waits without end. -/
theorem IsSound.hold (hs : s.IsSound) (fresh : ∀ h ∈ s.people, h.who ≠ who)
    (hne : (s.view.hold id timeout).2 ≠ .error .stuck) :
    ∃ t, s.after (stepsOf who id timeout (s.view.hold id timeout).2) = some t ∧
      t.view = (s.view.hold id timeout).1 := by
  cases hr : (s.view.hold id timeout).2 with
  | ok _ => exact hs.hold_ok fresh hr
  | error e => exact hs.hold_refused fresh hr fun he => hne (by rw [hr, he])

theorem IsSound.leave (hs : s.IsSound) (hm : h ∈ s.people) (hp : h.phase = .holding) (isRaised : Bool) :
    ∃ t, s.after [.release h.who isRaised, .checkin h.who] = some t ∧ t.view = s.view.leave h.id := by
  obtain ⟨s₁, h₁, sound₁, people₁, view₁⟩ := hs.step_of_serves (.released hm rfl hp) (hs.find?_id hm rfl)
  have here : { h with phase := .leaving (.left isRaised) } ∈ s₁.people := people₁ ▸ mem_rephase hm rfl _
  obtain ⟨t, ht, -, -, view⟩ := sound₁.step_of_serves (.left here rfl rfl) (sound₁.find?_id here rfl)
  refine ⟨t, by simp [Crowd.after, h₁, ht], ?_⟩
  rw [view, view₁]
  rfl

end Crowd

/-- Any holders may take their steps in any order. The table counts those who use an id, in one entry that they share
and that is there while they are, and lets one of them hold the lock at a time. Each step does what the functions of
the table do, and nothing to other ids; the table refuses no step that locks allow; and `hold` and `leave` are such
steps that nobody interrupts. Without one of the holders the run goes on, and shows the others the same table as long
as that one does not hold its lock. -/
theorem locks_shared_safely (xs : List Step) (s : Crowd) (hx : Crowd.run xs = some s) :
    s.IsOrderly ∧
    (∀ x t, s.step x = some t →
      ∃ id, s.idOf x = some id ∧ t.view = x.atTable id s.view ∧ ∀ id', id' ≠ id →
      t.cellOf? id' = s.cellOf? id') ∧
    (∀ x ps, (∃ t, s.step x = some t ∧ t.people = ps) ↔ Serves s.people x ps) ∧
    (∀ who id timeout, (∀ h ∈ s.people, h.who ≠ who) → (s.view.hold id timeout).2 ≠ .error .stuck →
      ∃ t, s.after (Crowd.stepsOf who id timeout (s.view.hold id timeout).2) = some t ∧
        t.view = (s.view.hold id timeout).1) ∧
    (∀ h ∈ s.people, h.phase = .holding → ∀ isRaised, ∃ t,
      s.after [.release h.who isRaised, .checkin h.who] = some t ∧ t.view = s.view.leave h.id) ∧
    ∀ h ∈ s.holders, ∃ t, Crowd.run (xs.filter (·.who ≠ h.who)) = some t ∧
      t.people = others h.who s.people ∧
      (h.phase ≠ .holding → ∀ id, t.view.isHeld id = s.view.isHeld id) ∧
      ∀ id, id ≠ h.id ∨ h.isIn = false → t.view.entry? id = s.view.entry? id := by
  have hs := Crowd.run_sound hx
  refine ⟨hs.orderly, fun x t ht => ?_, fun x ps => hs.step_iff, fun who id timeout => hs.hold,
    fun h hm => hs.leave hm, fun h hm => ?_⟩
  · have taken := Crowd.takes_of_step ht
    obtain ⟨id, about, view⟩ := hs.view_takes taken
    exact ⟨id, about, view, fun id' hne => hs.cellOf?_takes taken about hne⟩
  · obtain ⟨t, ht, hp⟩ := Crowd.empty_sound.after_without Crowd.empty_sound (w := h.who) rfl hx
    exact ⟨t, ht, hp, hs.seen_without (Crowd.run_sound ht) hm hp⟩

/-- One who holds the lock of a loan, and another who wants it for a second and gives up. -/
def twoAtOneLoan : List Step :=
  [.arrive 0 "L1" .null, .acquire 0, .arrive 1 "L1" (.int 1), .giveUp 1, .checkin 1]

/-- The lock is held by one, and the table is as though the other had not come. -/
theorem locks_shared_safely_by_two :
    ∃ s t, Crowd.run twoAtOneLoan = some s ∧ Crowd.run [.arrive 0 "L1" .null, .acquire 0] = some t ∧
      s.IsOrderly ∧ s.holding "L1" = 1 ∧ s.idsInUse = ["L1"] ∧ ∀ id, t.view.entry? id = s.view.entry? id := by
  have two : Crowd.run twoAtOneLoan = some ⟨[⟨1, true⟩], [("L1", 0)],
    [⟨0, "L1", .null, 0, .holding⟩, ⟨1, "L1", .int 1, 0, .gone (.refused .timedOut)⟩]⟩ := rfl
  obtain ⟨isOrderly, -, -, -, -, without⟩ := locks_shared_safely _ _ two
  obtain ⟨t, one, -, -, same⟩ := without _ (List.mem_cons_of_mem _ List.mem_cons_self)
  exact ⟨_, t, two, one, isOrderly, rfl, rfl, fun id => same id (.inr rfl)⟩

end LoanLedger.Locks
