import Mathlib.Data.List.Dedup
import Mathlib.Data.List.Nodup
import LoanLedger.Locks.Holders
import LoanLedger.Proofs.Locks

/-!
# Locks are shared safely

* `Crowd.Takes s x t` : all that one step of a holder can do;
* `Crowd.IsSound s` : the invariant: the entries of the table are the ids and cells of those who have checked out, each
  cell counts them, and its lock is taken once for each of those who hold it;
* `IsSound.takes` : every step keeps it; `run_sound` : so it holds after all steps in any order.
-/

namespace LoanLedger.Locks

variable {s t : Crowd} {x : Step} {who a : Nat} {id : String} {h : Holder} {c : Cell} {hs as bs : List Holder}

namespace Crowd

/-! ## Steps -/

/-- What one step of a holder does. -/
inductive Takes (s : Crowd) : Step → Crowd → Prop where
  /-- Somebody comes to an id that has an entry. -/
  | joined {who : Nat} {id : String} {timeout : Value} {a : Nat} {c : Cell} :
    s.find? who = none → s.table.lookup id = some a → s.cells[a]? = some c →
    Takes s (.arrive who id timeout)
      ⟨s.cells.set a { c with refs := c.refs + 1 }, s.table, s.holders ++ [⟨who, id, timeout, a, .waiting⟩]⟩
  /-- Somebody comes to an id that has none. -/
  | opened {who : Nat} {id : String} {timeout : Value} :
    s.find? who = none → s.table.lookup id = none →
    Takes s (.arrive who id timeout)
      ⟨s.cells ++ [⟨1, false⟩], s.table ++ [(id, s.cells.length)],
        s.holders ++ [⟨who, id, timeout, s.cells.length, .waiting⟩]⟩
  | acquired {who : Nat} {h : Holder} {c : Cell} :
    s.find? who = some h → s.cells[h.cell]? = some c → h.phase = .waiting → h.isPatient = true →
    c.isTaken = false → Takes s (.acquire who) ((s.put h.cell { c with isTaken := true }).move who .holding)
  | gaveUp {who : Nat} {h : Holder} {e : Error} :
    s.find? who = some h → h.phase = .waiting → h.refusal? = some e →
    Takes s (.giveUp who) (s.move who (.leaving (.refused e)))
  | released {who : Nat} {isRaised : Bool} {h : Holder} {c : Cell} :
    s.find? who = some h → s.cells[h.cell]? = some c → h.phase = .holding → c.isTaken = true →
    Takes s (.release who isRaised) ((s.put h.cell { c with isTaken := false }).move who (.leaving (.left isRaised)))
  /-- Somebody leaves, and others are still there. -/
  | left {who : Nat} {h : Holder} {r : Ending} {c : Cell} :
    s.find? who = some h → h.phase = .leaving r → s.cells[h.cell]? = some c → c.refs - 1 ≠ 0 →
    Takes s (.checkin who) ((s.put h.cell { c with refs := c.refs - 1 }).move who (.gone r))
  | reclaimed {who : Nat} {h : Holder} {r : Ending} {c : Cell} :
    s.find? who = some h → h.phase = .leaving r → s.cells[h.cell]? = some c → c.refs - 1 = 0 →
    (s.table.lookup h.id).isSome →
    Takes s (.checkin who)
      { (s.put h.cell { c with refs := c.refs - 1 }).move who (.gone r) with
        table := s.table.filter (·.1 ≠ h.id) }

theorem takes_of_step (hx : s.step x = some t) : s.Takes x t := by
  cases x with
  | arrive who id timeout =>
    simp only [step] at hx
    split at hx
    · cases hx
    · next hw =>
      have fresh : s.find? who = none := by simpa using hw
      unfold checkout at hx
      cases ht : s.table.lookup id with
      | none =>
        rw [ht] at hx
        cases hx
        exact .opened fresh ht
      | some a =>
        rw [ht] at hx
        dsimp only at hx
        cases hc : s.cells[a]? with
        | none => rw [hc] at hx; cases hx
        | some c =>
          rw [hc] at hx
          cases hx
          exact .joined fresh ht hc
  | acquire who =>
    simp only [step, Option.bind_eq_bind, Option.bind_eq_some_iff] at hx
    obtain ⟨h, hf, c, hc, hx⟩ := hx
    split at hx
    · next hw =>
      cases hx
      exact .acquired hf hc hw.1 hw.2.1 hw.2.2
    · cases hx
  | giveUp who =>
    simp only [step, Option.bind_eq_bind, Option.bind_eq_some_iff] at hx
    obtain ⟨h, hf, e, he, hx⟩ := hx
    split at hx
    · next hw =>
      cases hx
      exact .gaveUp hf hw he
    · cases hx
  | release who isRaised =>
    simp only [step, Option.bind_eq_bind, Option.bind_eq_some_iff] at hx
    obtain ⟨h, hf, c, hc, hx⟩ := hx
    split at hx
    · next hw =>
      cases hx
      exact .released hf hc hw.1 hw.2
    · cases hx
  | checkin who =>
    simp only [step, Option.bind_eq_bind, Option.bind_eq_some_iff] at hx
    obtain ⟨h, hf, hx⟩ := hx
    split at hx
    · next r hp =>
      simp only [checkin, Option.bind_eq_bind, Option.map_eq_some_iff, Option.bind_eq_some_iff] at hx
      obtain ⟨s₁, ⟨c, hc, hx⟩, rfl⟩ := hx
      split at hx
      · next hr =>
        cases hx
        exact .left hf hp hc hr
      · next hr =>
        split at hx
        · next ht =>
          cases hx
          exact .reclaimed hf hp hc (Decidable.not_not.mp hr) ht
        · cases hx
    · cases hx

theorem step_of_takes (hx : s.Takes x t) : s.step x = some t := by
  cases hx with
  | joined hw ht hc => simp [step, checkout, hw, ht, hc, put]
  | opened hw ht => simp [step, checkout, hw, ht]
  | acquired hf hc hp hw ht => simp [step, hf, hc, hp, hw, ht]
  | gaveUp hf hp he => simp [step, hf, hp, he]
  | released hf hc hp ht => simp [step, hf, hc, hp, ht]
  | left hf hp hc hr => simp [step, checkin, hf, hp, hc, hr]
  | reclaimed hf hp hc hr ht => simp [step, checkin, hf, hp, hc, hr, ht, put, move]

/-! ## Who uses what -/

def usesOf (hs : List Holder) : List (String × Nat) := (hs.filter (·.isIn)).map fun h => (h.id, h.cell)

/-- How many have checked out a cell. -/
def usersOf (hs : List Holder) (a : Nat) : Nat := ((usesOf hs).map (·.2)).count a

def heldOf (hs : List Holder) : List Nat := (hs.filter (·.phase = .holding)).map (·.cell)

theorem usesOf_append (as bs : List Holder) : usesOf (as ++ bs) = usesOf as ++ usesOf bs := by simp [usesOf]

theorem heldOf_append (as bs : List Holder) : heldOf (as ++ bs) = heldOf as ++ heldOf bs := by simp [heldOf]

theorem usesOf_in (hin : h.isIn = true) (bs : List Holder) : usesOf (h :: bs) = (h.id, h.cell) :: usesOf bs := by
  simp [usesOf, hin]

theorem usesOf_out (hin : h.isIn = false) (bs : List Holder) : usesOf (h :: bs) = usesOf bs := by
  simp [usesOf, hin]

theorem heldOf_holding (hp : h.phase = .holding) (bs : List Holder) : heldOf (h :: bs) = h.cell :: heldOf bs := by
  simp [heldOf, hp]

theorem heldOf_not (hp : h.phase ≠ .holding) (bs : List Holder) : heldOf (h :: bs) = heldOf bs := by
  simp [heldOf, hp]

theorem mem_usesOf {p : String × Nat} : p ∈ usesOf hs ↔ ∃ h ∈ hs, h.isIn = true ∧ (h.id, h.cell) = p := by
  simp [usesOf, and_assoc]

theorem isIn_of_waiting (hp : h.phase = .waiting) : h.isIn = true := by rw [Holder.isIn, hp]

theorem isIn_of_holding (hp : h.phase = .holding) : h.isIn = true := by rw [Holder.isIn, hp]

theorem isIn_of_leaving {r : Ending} (hp : h.phase = .leaving r) : h.isIn = true := by rw [Holder.isIn, hp]

theorem used_of_held (ha : a ∈ heldOf hs) : ∃ p ∈ usesOf hs, p.2 = a := by
  obtain ⟨h, hm, rfl⟩ := List.mem_map.mp ha
  obtain ⟨hm, hp⟩ := List.mem_filter.mp hm
  exact ⟨(h.id, h.cell), mem_usesOf.mpr ⟨h, hm, isIn_of_holding (of_decide_eq_true hp), rfl⟩, rfl⟩

/-- The invariant. -/
structure IsSound (s : Crowd) : Prop where
  names : (s.holders.map (·.who)).Nodup
  keys : (s.table.map (·.1)).Nodup
  /-- The table has the ids and cells of those who have checked out. -/
  entries : ∀ p, p ∈ s.table ↔ p ∈ usesOf s.holders
  apart : ∀ p ∈ usesOf s.holders, ∀ q ∈ usesOf s.holders, p.2 = q.2 → p.1 = q.1
  made : ∀ p ∈ usesOf s.holders, p.2 < s.cells.length
  refs : ∀ a c, s.cells[a]? = some c → c.refs = (usersOf s.holders a : Int)
  /-- A lock is taken once for each who holds it. -/
  taken : ∀ a c, s.cells[a]? = some c → c.isTaken.toNat = (heldOf s.holders).count a

theorem empty_sound : empty.IsSound where
  names := .nil
  keys := .nil
  entries p := by simp [empty, usesOf]
  apart p hp := by cases hp
  made p hp := by cases hp
  refs a c hc := by simp [empty] at hc
  taken a c hc := by simp [empty] at hc

/-- A holder stands somewhere among the others, and stays there when it moves. -/
theorem IsSound.split (hs : s.IsSound) (hf : s.find? who = some h) :
    ∃ as bs, s.holders = as ++ h :: bs ∧ ∀ p, (s.move who p).holders = as ++ { h with phase := p } :: bs := by
  obtain ⟨hw, as, bs, hsplit, has⟩ := List.find?_eq_some_iff_append.mp hf
  have hw : h.who = who := by simpa using hw
  have names := hs.names
  rw [hsplit, List.map_append, List.map_cons, List.nodup_append, List.nodup_cons] at names
  obtain ⟨-, ⟨notBehind, -⟩, -⟩ := names
  have hbs : ∀ x ∈ bs, x.who ≠ who := fun x hx he => notBehind (List.mem_map.mpr ⟨x, hx, he.trans hw.symm⟩)
  have stays {p : Phase} {cs : List Holder} (hcs : ∀ x ∈ cs, x.who ≠ who) :
      cs.map (fun x => if x.who = who then { x with phase := p } else x) = cs :=
    (List.map_congr_left fun x hx => if_neg (hcs x hx)).trans (List.map_id' cs)
  refine ⟨as, bs, hsplit, fun p => ?_⟩
  rw [move, hsplit, List.map_append, List.map_cons, stays fun x hx => by simpa using has x hx, stays hbs, if_pos hw]

theorem IsSound.cell (hs : s.IsSound) (hf : s.find? who = some h) (hin : h.isIn = true) :
    ∃ c, s.cells[h.cell]? = some c :=
  ⟨_, List.getElem?_eq_getElem (hs.made _ (mem_usesOf.mpr ⟨h, List.mem_of_find?_eq_some hf, hin, rfl⟩))⟩

/-! ## One step -/

theorem count_heldOf (as bs : List Holder) (h : Holder) (a : Nat) :
    (heldOf (as ++ h :: bs)).count a =
      (heldOf as).count a + (heldOf bs).count a + if h.phase = .holding ∧ h.cell = a then 1 else 0 := by
  by_cases hp : h.phase = .holding
  · by_cases ha : h.cell = a <;> simp [heldOf_append, heldOf_holding hp, hp, ha, Nat.add_assoc]
  · simp [heldOf_append, heldOf_not hp, hp]

theorem cell_of_set {cells : List Cell} {a b : Nat} {c' : Cell} (h : (cells.set b c)[a]? = some c') :
    (b = a ∧ c' = c) ∨ (b ≠ a ∧ cells[a]? = some c') := by
  rw [List.getElem?_set] at h
  split at h
  · next ha =>
    split at h
    · cases h
      exact .inl ⟨ha, rfl⟩
    · cases h
  · next ha => exact .inr ⟨ha, h⟩

/-- A step between checking out and checking in changes at most the lock, as the holder does or does not hold it. -/
theorem IsSound.rephased (hs : s.IsSound) (hf : s.find? who = some h) (hc : s.cells[h.cell]? = some c)
    {p : Phase} {b : Bool} (hin : h.isIn = true) (hin' : ({ h with phase := p } : Holder).isIn = true)
    (hb : b.toNat + (if h.phase = .holding then 1 else 0) = c.isTaken.toNat + if p = .holding then 1 else 0) :
    ((s.put h.cell { c with isTaken := b }).move who p).IsSound := by
  obtain ⟨as, bs, hsplit, hmove⟩ := hs.split hf
  have hmove : ((s.put h.cell { c with isTaken := b }).move who p).holders = as ++ { h with phase := p } :: bs :=
    hmove p
  have uses : usesOf ((s.put h.cell { c with isTaken := b }).move who p).holders = usesOf s.holders := by
    rw [hmove, hsplit, usesOf_append, usesOf_append, usesOf_in hin, usesOf_in hin']
  exact {
    names := by
      have names := hs.names
      rw [hsplit] at names
      rw [hmove]
      simpa using names
    keys := hs.keys
    entries := fun q => by
      rw [uses]
      exact hs.entries q
    apart := by
      rw [uses]
      exact hs.apart
    made := by
      rw [uses]
      intro q hq
      exact Nat.lt_of_lt_of_eq (hs.made q hq) (List.length_set ..).symm
    refs := fun a c' h' => by
      rw [usersOf, uses]
      rcases cell_of_set h' with ⟨rfl, rfl⟩ | ⟨-, h'⟩
      · exact hs.refs h.cell c hc
      · exact hs.refs a c' h'
    taken := fun a c' h' => by
      have before (c₁ : Cell) (h₁ : s.cells[a]? = some c₁) := hs.taken a c₁ h₁
      rw [hmove, count_heldOf]
      rw [hsplit, count_heldOf] at before
      rcases cell_of_set h' with ⟨rfl, rfl⟩ | ⟨ha, h'⟩
      · have := before c hc
        simp only [and_true] at this ⊢
        omega
      · have := before c' h'
        simp only [ha, and_false, if_false] at this ⊢
        exact this }

/-- Who has checked out the same id has the same cell. -/
theorem IsSound.unique (hs : s.IsSound) {p q : String × Nat} (hp : p ∈ usesOf s.holders)
    (hq : q ∈ usesOf s.holders) (h : p.1 = q.1) : p = q :=
  List.inj_on_of_nodup_map hs.keys ((hs.entries p).mpr hp) ((hs.entries q).mpr hq) h

theorem usersOf_split (hin : h.isIn = true) (as bs : List Holder) (a : Nat) :
    usersOf (as ++ h :: bs) a = usersOf (as ++ bs) a + if h.cell = a then 1 else 0 := by
  rw [usersOf, usersOf, usesOf_append, usesOf_append, usesOf_in hin]
  by_cases ha : h.cell = a <;> simp [ha, Nat.add_assoc]

theorem usersOf_eq_zero {a : Nat} (hz : usersOf hs a = 0) : ∀ p ∈ usesOf hs, p.2 ≠ a :=
  fun p hp ha => List.count_eq_zero.mp hz (List.mem_map.mpr ⟨p, hp, ha⟩)

/-- Who checks in uses up its place, and with the last one the entry goes. -/
theorem IsSound.checkedIn (hs : s.IsSound) (hf : s.find? who = some h) (hc : s.cells[h.cell]? = some c) {r : Ending}
    (hp : h.phase = .leaving r) {table : List (String × Nat)}
    (ht : (c.refs - 1 ≠ 0 ∧ table = s.table) ∨ (c.refs - 1 = 0 ∧ table = s.table.filter (·.1 ≠ h.id))) :
    ({ (s.put h.cell { c with refs := c.refs - 1 }).move who (.gone r) with table } : Crowd).IsSound := by
  obtain ⟨as, bs, hsplit, hmove⟩ := hs.split hf
  have hmove : ((s.put h.cell { c with refs := c.refs - 1 }).move who (.gone r)).holders =
      as ++ { h with phase := .gone r } :: bs := hmove _
  have hin := isIn_of_leaving hp
  have uses : usesOf ((s.put h.cell { c with refs := c.refs - 1 }).move who (.gone r)).holders = usesOf (as ++ bs) := by
    rw [hmove, usesOf_append, usesOf_out rfl, usesOf_append]
  have mem {q : String × Nat} : q ∈ usesOf s.holders ↔ q = (h.id, h.cell) ∨ q ∈ usesOf (as ++ bs) := by
    rw [hsplit, usesOf_append, usesOf_in hin, usesOf_append]
    simp only [List.mem_append, List.mem_cons]
    tauto
  have own : (h.id, h.cell) ∈ usesOf s.holders := mem.mpr (.inl rfl)
  have count : c.refs - 1 = (usersOf (as ++ bs) h.cell : Int) := by
    have := hs.refs h.cell c hc
    rw [hsplit, usersOf_split hin, if_pos rfl] at this
    omega
  have entries (q : String × Nat) : q ∈ table ↔ q ∈ usesOf (as ++ bs) := by
    rcases ht with ⟨hr, rfl⟩ | ⟨hr, rfl⟩
    · -- somebody else has the same cell, and so the same id
      rw [hs.entries, mem]
      refine ⟨?_, .inr⟩
      rintro (rfl | hq)
      · have some : h.cell ∈ (usesOf (as ++ bs)).map (·.2) := by
          refine List.count_pos_iff.mp (Nat.pos_of_ne_zero fun hz => hr ?_)
          rw [count, usersOf, hz]
          rfl
        obtain ⟨q, hq, ha⟩ := List.mem_map.mp some
        have same : q = (h.id, h.cell) := Prod.ext (hs.apart q (mem.mpr (.inr hq)) _ own ha) ha
        rwa [← same]
      · exact hq
    · -- nobody else has the cell, and so nobody the id
      have hz : usersOf (as ++ bs) h.cell = 0 := by omega
      rw [List.mem_filter, hs.entries, mem]
      constructor
      · rintro ⟨rfl | hq, hne⟩
        · simp at hne
        · exact hq
      · intro hq
        refine ⟨.inr hq, decide_eq_true fun he => ?_⟩
        have same := hs.unique (mem.mpr (.inr hq)) own he
        exact usersOf_eq_zero hz q hq (by rw [same])
  exact {
    names := by
      have names := hs.names
      rw [hsplit] at names
      rw [hmove]
      simpa using names
    keys := by
      rcases ht with ⟨-, rfl⟩ | ⟨-, rfl⟩
      · exact hs.keys
      · exact hs.keys.sublist (List.filter_sublist.map _)
    entries := fun q => by
      rw [uses]
      exact entries q
    apart := by
      rw [uses]
      exact fun p hp q hq => hs.apart p (mem.mpr (.inr hp)) q (mem.mpr (.inr hq))
    made := by
      rw [uses]
      intro q hq
      exact Nat.lt_of_lt_of_eq (hs.made q (mem.mpr (.inr hq))) (List.length_set ..).symm
    refs := fun a c' h' => by
      rw [usersOf, uses, ← usersOf]
      rcases cell_of_set h' with ⟨rfl, rfl⟩ | ⟨ha, h'⟩
      · exact count
      · have := hs.refs a c' h'
        rw [hsplit, usersOf_split hin, if_neg ha] at this
        exact this
    taken := fun a c' h' => by
      have before (c₁ : Cell) (h₁ : s.cells[a]? = some c₁) := hs.taken a c₁ h₁
      have out : h.phase ≠ .holding := by
        rw [hp]
        exact fun h => by cases h
      rw [hmove, heldOf_append, heldOf_not (fun h => by cases h)]
      rw [hsplit, heldOf_append, heldOf_not out] at before
      rcases cell_of_set h' with ⟨rfl, rfl⟩ | ⟨ha, h'⟩
      · exact before c hc
      · exact before c' h' }

theorem cell_of_concat {cells : List Cell} {a : Nat} {c' : Cell} (h : (cells ++ [c])[a]? = some c') :
    (a < cells.length ∧ cells[a]? = some c') ∨ (a = cells.length ∧ c' = c) := by
  rcases Nat.lt_trichotomy a cells.length with hlt | rfl | hgt
  · rw [List.getElem?_append_left hlt] at h
    exact .inl ⟨hlt, h⟩
  · rw [List.getElem?_concat_length] at h
    cases h
    exact .inr ⟨rfl, rfl⟩
  · rw [List.getElem?_eq_none (by rw [List.length_append, List.length_singleton]; omega)] at h
    cases h

theorem find?_none (hf : s.find? who = none) : ∀ x ∈ s.holders, x.who ≠ who :=
  fun x hx => by simpa using List.find?_eq_none.mp hf x hx

theorem mem_of_lookup {table : List (String × Nat)} (ht : table.lookup id = some a) : (id, a) ∈ table := by
  obtain ⟨xs, ys, rfl, -⟩ := List.lookup_eq_some_iff.mp ht
  exact List.mem_append_right _ List.mem_cons_self

theorem not_mem_of_lookup {table : List (String × Nat)} (ht : table.lookup id = none) : id ∉ table.map (·.1) := by
  intro hm
  obtain ⟨p, hp, rfl⟩ := List.mem_map.mp hm
  simpa using List.lookup_eq_none_iff.mp ht p hp

section Arriving

variable {timeout : Value}

theorem usesOf_arrived : usesOf (hs ++ [⟨who, id, timeout, a, .waiting⟩]) = usesOf hs ++ [(id, a)] := by
  rw [usesOf_append, usesOf_in rfl]
  rfl

theorem usersOf_arrived (b : Nat) :
    usersOf (hs ++ [⟨who, id, timeout, a, .waiting⟩]) b = usersOf hs b + if a = b then 1 else 0 := by
  rw [usersOf_split rfl, List.append_nil]

theorem heldOf_arrived : heldOf (hs ++ [⟨who, id, timeout, a, .waiting⟩]) = heldOf hs := by
  rw [heldOf_append, heldOf_not (fun h => by cases h)]
  exact List.append_nil _

theorem names_arrived (hs : s.IsSound) (hf : s.find? who = none) :
    ((s.holders ++ [(⟨who, id, timeout, a, .waiting⟩ : Holder)]).map (·.who)).Nodup := by
  rw [List.map_append, List.nodup_append]
  refine ⟨hs.names, List.pairwise_singleton _ _, fun x hx y hy => ?_⟩
  obtain ⟨g, hg, rfl⟩ := List.mem_map.mp hx
  rw [List.map_singleton, List.mem_singleton] at hy
  rw [hy]
  exact find?_none hf g hg

/-- Who comes to an id that has an entry shares its cell. -/
theorem IsSound.joined (hs : s.IsSound) (hf : s.find? who = none) (ht : s.table.lookup id = some a)
    (hc : s.cells[a]? = some c) :
    (⟨s.cells.set a { c with refs := c.refs + 1 }, s.table, s.holders ++ [⟨who, id, timeout, a, .waiting⟩]⟩ :
      Crowd).IsSound := by
  have own : (id, a) ∈ usesOf s.holders := (hs.entries _).mp (mem_of_lookup ht)
  have mem {p : String × Nat} : p ∈ usesOf s.holders ++ [(id, a)] ↔ p ∈ usesOf s.holders := by
    rw [List.mem_append, List.mem_singleton]
    exact ⟨fun h => h.elim (fun h => h) fun h => h ▸ own, .inl⟩
  exact {
    names := names_arrived hs hf
    keys := hs.keys
    entries := fun p => by
      rw [usesOf_arrived, mem]
      exact hs.entries p
    apart := by
      rw [usesOf_arrived]
      exact fun p hp q hq => hs.apart p (mem.mp hp) q (mem.mp hq)
    made := by
      rw [usesOf_arrived]
      intro p hp
      exact Nat.lt_of_lt_of_eq (hs.made p (mem.mp hp)) (List.length_set ..).symm
    refs := fun b c' h' => by
      rw [usersOf_arrived]
      rcases cell_of_set h' with ⟨rfl, rfl⟩ | ⟨hb, h'⟩
      · have := hs.refs a c hc
        rw [if_pos rfl]
        dsimp only
        omega
      · rw [if_neg hb]
        exact hs.refs b c' h'
    taken := fun b c' h' => by
      rw [heldOf_arrived]
      rcases cell_of_set h' with ⟨rfl, rfl⟩ | ⟨-, h'⟩
      · exact hs.taken a c hc
      · exact hs.taken b c' h' }

/-- Who comes to an id that has none makes an entry with a new cell. -/
theorem IsSound.opened (hs : s.IsSound) (hf : s.find? who = none) (ht : s.table.lookup id = none) :
    (⟨s.cells ++ [⟨1, false⟩], s.table ++ [(id, s.cells.length)],
      s.holders ++ [⟨who, id, timeout, s.cells.length, .waiting⟩]⟩ : Crowd).IsSound := by
  have new {p : String × Nat} (hp : p ∈ usesOf s.holders) : p.2 ≠ s.cells.length := Nat.ne_of_lt (hs.made p hp)
  have unused : usersOf s.holders s.cells.length = 0 := by
    refine List.count_eq_zero.mpr fun hm => ?_
    obtain ⟨p, hp, he⟩ := List.mem_map.mp hm
    exact new hp he
  have unheld : (heldOf s.holders).count s.cells.length = 0 := by
    refine List.count_eq_zero.mpr fun hm => ?_
    obtain ⟨p, hp, he⟩ := used_of_held hm
    exact new hp he
  exact {
    names := names_arrived hs hf
    keys := by
      rw [List.map_append, List.nodup_append]
      refine ⟨hs.keys, List.pairwise_singleton _ _, fun x hx y hy he => ?_⟩
      rw [List.map_singleton, List.mem_singleton] at hy
      rw [he, hy] at hx
      exact not_mem_of_lookup ht hx
    entries := fun p => by
      rw [usesOf_arrived, List.mem_append, List.mem_append, hs.entries]
    apart := by
      rw [usesOf_arrived]
      intro p hp q hq he
      rcases List.mem_append.mp hp with hp | hp <;> rcases List.mem_append.mp hq with hq | hq
      · exact hs.apart p hp q hq he
      · rw [List.mem_singleton.mp hq] at he
        exact absurd he (new hp)
      · rw [List.mem_singleton.mp hp] at he
        exact absurd he.symm (new hq)
      · rw [List.mem_singleton.mp hp, List.mem_singleton.mp hq]
    made := by
      rw [usesOf_arrived]
      intro p hp
      rw [List.length_append, List.length_singleton]
      rcases List.mem_append.mp hp with hp | hp
      · exact Nat.lt_succ_of_lt (hs.made p hp)
      · rw [List.mem_singleton.mp hp]
        exact Nat.lt_succ_self _
    refs := fun b c' h' => by
      rw [usersOf_arrived]
      rcases cell_of_concat h' with ⟨hb, h'⟩ | ⟨rfl, rfl⟩
      · rw [if_neg (Nat.ne_of_gt hb)]
        exact hs.refs b c' h'
      · rw [if_pos rfl, unused]
        rfl
    taken := fun b c' h' => by
      rw [heldOf_arrived]
      rcases cell_of_concat h' with ⟨-, h'⟩ | ⟨rfl, rfl⟩
      · exact hs.taken b c' h'
      · exact unheld.symm }

end Arriving

theorem IsSound.takes (hs : s.IsSound) (hx : s.Takes x t) : t.IsSound := by
  cases hx with
  | joined hf ht hc => exact hs.joined hf ht hc
  | opened hf ht => exact hs.opened hf ht
  | acquired hf hc hp hw ht =>
    refine hs.rephased hf hc (isIn_of_waiting hp) rfl ?_
    rw [hp, ht]
    rfl
  | @gaveUp who h e hf hp he =>
    have hin := isIn_of_waiting hp
    obtain ⟨c, hc⟩ := hs.cell hf hin
    have same : s.put h.cell { c with isTaken := c.isTaken } = s := by
      obtain ⟨hlt, rfl⟩ := List.getElem?_eq_some_iff.mp hc
      rw [put, List.set_getElem_self]
    have := hs.rephased (p := .leaving (.refused e)) hf hc hin rfl (by rw [hp]; rfl)
    rwa [same] at this
  | released hf hc hp ht =>
    refine hs.rephased hf hc (isIn_of_holding hp) rfl ?_
    rw [hp, ht]
    rfl
  | left hf hp hc hr => exact hs.checkedIn hf hc hp (.inl ⟨hr, rfl⟩)
  | reclaimed hf hp hc hr => exact hs.checkedIn hf hc hp (.inr ⟨hr, rfl⟩)

theorem IsSound.after (hs : s.IsSound) {xs : List Step} (hx : s.after xs = some t) : t.IsSound := by
  induction xs generalizing s with
  | nil =>
    cases hx
    exact hs
  | cons x xs ih =>
    rw [Crowd.after, List.foldlM_cons, Option.bind_eq_bind, Option.bind_eq_some_iff] at hx
    obtain ⟨s₁, h₁, hx⟩ := hx
    exact ih (hs.takes (takes_of_step h₁)) hx

theorem run_sound {xs : List Step} (hx : run xs = some s) : s.IsSound := empty_sound.after hx

end Crowd

end LoanLedger.Locks
