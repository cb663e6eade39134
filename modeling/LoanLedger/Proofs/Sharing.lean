import LoanLedger.Proofs.Holders

/-!
# What sharing locks comes to

* `Crowd.users s id`, `Crowd.holding s id` : how many use an id, and how many hold its lock;
* `IsSound.view_entry?` : that is what the table shows of the id;
* `IsSound.view_takes` : a step changes what the table shows as the functions of the table do;
* `IsSound.cellOf?_takes` : it leaves the cells of other ids;
* `Crowd.IsOrderly` : what the table is to those who have come; `IsSound.orderly` : it follows from the invariant.
-/

namespace LoanLedger.Locks

variable {s t : Crowd} {x : Step} {who a : Nat} {id : String} {h : Holder} {c : Cell}
  {table : List (String × Nat)} {cells : List Cell}

namespace Crowd

/-! ## Users of an id -/

def users (s : Crowd) (id : String) : Nat := s.holders.countP fun h => h.isIn && h.id = id

def holding (s : Crowd) (id : String) : Nat := s.holders.countP fun h => h.phase = .holding && h.id = id

theorem IsSound.lookup (hs : s.IsSound) : s.table.lookup id = some a ↔ (id, a) ∈ usesOf s.holders := by
  refine ⟨fun ht => (hs.entries _).mp (mem_of_lookup ht), fun hu => ?_⟩
  cases ht : s.table.lookup id with
  | none => exact absurd (List.mem_map.mpr ⟨_, (hs.entries _).mpr hu, rfl⟩) (not_mem_of_lookup ht)
  | some b => rw [(Prod.mk.inj (hs.unique ((hs.entries _).mp (mem_of_lookup ht)) hu rfl)).2]

theorem IsSound.shared (hs : s.IsSound) (hm : h ∈ s.holders) (hin : h.isIn = true) :
    s.table.lookup h.id = some h.cell :=
  hs.lookup.mpr (mem_usesOf.mpr ⟨h, hm, hin, rfl⟩)

theorem IsSound.usersOf_eq (hs : s.IsSound) (ht : s.table.lookup id = some a) : usersOf s.holders a = s.users id := by
  have own := hs.lookup.mp ht
  rw [usersOf, List.count, List.countP_map, usesOf, List.countP_map, List.countP_filter, users]
  refine List.countP_congr fun h hm => ?_
  simp only [Function.comp_apply, Bool.and_eq_true, beq_iff_eq, decide_eq_true_eq]
  constructor
  · rintro ⟨ha, hin⟩
    exact ⟨hin, hs.apart (h.id, h.cell) (mem_usesOf.mpr ⟨h, hm, hin, rfl⟩) _ own ha⟩
  · rintro ⟨hin, hid⟩
    exact ⟨congrArg Prod.snd (hs.unique (mem_usesOf.mpr ⟨h, hm, hin, rfl⟩) own hid), hin⟩

theorem IsSound.users_pos (hs : s.IsSound) : 0 < s.users id ↔ (s.table.lookup id).isSome = true := by
  rw [users, List.countP_pos_iff]
  constructor
  · rintro ⟨h, hm, hh⟩
    obtain ⟨hin, rfl⟩ : h.isIn = true ∧ h.id = id := by simpa using hh
    rw [hs.shared hm hin]
    rfl
  · intro ht
    obtain ⟨a, ht⟩ := Option.isSome_iff_exists.mp ht
    obtain ⟨h, hm, hin, he⟩ := mem_usesOf.mp (hs.lookup.mp ht)
    cases he
    exact ⟨h, hm, by simp [hin]⟩

theorem IsSound.unused (hs : s.IsSound) (ht : s.table.lookup id = none) : s.users id = 0 := by
  refine Nat.eq_zero_of_not_pos fun hpos => ?_
  have := hs.users_pos.mp hpos
  rw [ht] at this
  cases this

theorem IsSound.heldOf_eq (hs : s.IsSound) (ht : s.table.lookup id = some a) :
    (heldOf s.holders).count a = s.holding id := by
  have own := hs.lookup.mp ht
  rw [List.count, heldOf, List.countP_map, List.countP_filter, holding]
  refine List.countP_congr fun h hm => ?_
  simp only [Function.comp_apply, Bool.and_eq_true, beq_iff_eq, decide_eq_true_eq]
  constructor
  · rintro ⟨ha, hp⟩
    exact ⟨hp, hs.apart (h.id, h.cell) (mem_usesOf.mpr ⟨h, hm, isIn_of_holding hp, rfl⟩) _ own ha⟩
  · rintro ⟨hp, hid⟩
    exact ⟨congrArg Prod.snd (hs.unique (mem_usesOf.mpr ⟨h, hm, isIn_of_holding hp, rfl⟩) own hid), hp⟩

theorem holding_eq_zero (hz : s.users id = 0) : s.holding id = 0 := by
  rw [users, List.countP_eq_zero] at hz
  rw [holding, List.countP_eq_zero]
  intro h hm hh
  obtain ⟨hp, hid⟩ : h.phase = .holding ∧ h.id = id := by simpa using hh
  exact hz h hm (by simp [isIn_of_holding hp, hid])

/-- The entry of an id has a cell that counts its users, and its lock is taken while one of them holds it. -/
theorem IsSound.entry (hs : s.IsSound) (ht : s.table.lookup id = some a) :
    ∃ c, s.cells[a]? = some c ∧ c.refs = (s.users id : Int) ∧ c.isTaken.toNat = s.holding id := by
  have hc := List.getElem?_eq_getElem (hs.made _ (hs.lookup.mp ht))
  refine ⟨_, hc, ?_, ?_⟩
  · rw [hs.refs a _ hc, hs.usersOf_eq ht]
  · rw [hs.taken a _ hc, hs.heldOf_eq ht]

theorem IsSound.exclusive (hs : s.IsSound) (id : String) : s.holding id ≤ 1 := by
  cases ht : s.table.lookup id with
  | none =>
    rw [holding_eq_zero (hs.unused ht)]
    exact Nat.zero_le 1
  | some a =>
    obtain ⟨c, -, -, taken⟩ := hs.entry ht
    rw [← taken]
    exact Bool.toNat_le c.isTaken

/-! ## What the table shows -/

theorem lookup_filterMap {β : Type} (hk : (table.map (·.1)).Nodup) (f : Nat → Option β) (id : String) :
    (table.filterMap fun p => (f p.2).map fun e => (p.1, e)).lookup id = (table.lookup id).bind f := by
  induction table with
  | nil => rfl
  | cons p table ih =>
    rw [List.map_cons, List.nodup_cons] at hk
    rw [List.lookup_cons]
    by_cases hp : id = p.1
    · subst hp
      cases hf : f p.2 with
      | some e => simp [hf]
      | none =>
        have absent : table.lookup p.1 = none :=
          List.lookup_eq_none_iff.mpr fun q hq => by
            simpa using fun he : p.1 = q.1 => hk.1 (List.mem_map.mpr ⟨q, hq, he.symm⟩)
        simp [hf, ih hk.2, absent]
    · have hp' : (id == p.1) = false := by simpa using hp
      cases hf : f p.2 with
      | some e => simp [hf, List.lookup_cons, hp', ih hk.2]
      | none => simp [hf, hp', ih hk.2]

/-- The table shows how many use an id, and whether its lock is held. -/
theorem IsSound.view_entry? (hs : s.IsSound) (id : String) :
    s.view.entry? id = shown? ⟨s.users id, decide (0 < s.holding id)⟩ := by
  rw [view, entry?, lookup_filterMap hs.keys (fun a => (s.cells[a]?).bind shown?)]
  cases ht : s.table.lookup id with
  | none =>
    rw [hs.unused ht]
    rfl
  | some a =>
    obtain ⟨⟨refs, isTaken⟩, hc, rfl, taken⟩ := hs.entry ht
    rw [← taken, Option.bind_some, hc, Option.bind_some]
    cases isTaken <;> rfl

/-! ## Steps at the table -/

/-- The entries of a table, given those of its cells. -/
def tableOf (f : Nat → Option LockEntry) (table : List (String × Nat)) : Locks :=
  table.filterMap fun p => (f p.2).map fun e => (p.1, e)

variable {f g : Nat → Option LockEntry}

theorem view_eq : s.view = tableOf (fun b => (s.cells[b]?).bind shown?) s.table := rfl

theorem tableOf_congr (h : ∀ p ∈ table, f p.2 = g p.2) : tableOf f table = tableOf g table :=
  List.filterMap_congr fun p hp => by rw [h p hp]

/-- Where the cell of an id shows something else, the table is changed at that id. -/
theorem tableOf_update (hk : (table.map (·.1)).Nodup) (ha : ∀ p ∈ table, p.2 = a ↔ p.1 = id)
    (hm : (id, a) ∈ table) (hf : (f a).isSome)
    (hg : ∀ b, b ≠ a → f b = g b) : tableOf g table = (tableOf f table).update id (g a) := by
  induction table with
  | nil => cases hm
  | cons p table ih =>
    rw [List.map_cons, List.nodup_cons] at hk
    obtain ⟨hp, htable⟩ := List.forall_mem_cons.mp ha
    obtain ⟨e, he⟩ := Option.isSome_iff_exists.mp hf
    by_cases hid : p.1 = id
    · -- behind the entry of the id no other has its cell
      have rest : tableOf f table = tableOf g table := tableOf_congr fun q hq => hg _ fun hqa =>
        hk.1 (List.mem_map.mpr ⟨q, hq, ((htable q hq).mp hqa).trans hid.symm⟩)
      have hpa : p.2 = a := hp.mpr hid
      have shown : tableOf f (p :: table) = (p.1, e) :: tableOf f table := by simp [tableOf, hpa, he]
      rw [shown, update_cons, if_pos hid, rest]
      cases hga : g a <;> simp [tableOf, hpa, hga, hid]
    · have hpa : p.2 ≠ a := fun h => hid (hp.mp h)
      have ih := ih hk.2 htable ((List.mem_cons.mp hm).resolve_left fun h => hid (congrArg Prod.fst h).symm)
      cases hfp : f p.2 with
      | none =>
        have hgp : g p.2 = none := (hg _ hpa).symm.trans hfp
        simpa [tableOf, hfp, hgp] using ih
      | some e' =>
        have hgp : g p.2 = some e' := (hg _ hpa).symm.trans hfp
        have shown : tableOf f (p :: table) = (p.1, e') :: tableOf f table := by simp [tableOf, hfp]
        rw [shown, update_cons, if_neg hid, ← ih]
        simp [tableOf, hgp]

/-- An id whose cell shows nothing may as well be left out. -/
theorem tableOf_filter (h : ∀ p ∈ table, p.1 = id → f p.2 = none) :
    tableOf f (table.filter (·.1 ≠ id)) = tableOf f table := by
  induction table with
  | nil => rfl
  | cons p table ih =>
    obtain ⟨hp, htable⟩ := List.forall_mem_cons.mp h
    by_cases hid : p.1 = id
    · simpa [tableOf, hid, hp hid] using ih htable
    · have ih := ih htable
      unfold tableOf at ih ⊢
      rw [List.filter_cons_of_pos (by simpa using hid), List.filterMap_cons, List.filterMap_cons, ih]

theorem shown?_natCast {n : Nat} (hn : 0 < n) (b : Bool) : shown? ⟨n, b⟩ = some ⟨n, b, hn⟩ := dif_pos hn

theorem IsSound.shown (hs : s.IsSound) (ht : s.table.lookup id = some a) (hc : s.cells[a]? = some c) :
    ∃ (n : Nat) (hn : 0 < n), c.refs = (n : Int) ∧ shown? c = some ⟨n, c.isTaken, hn⟩ ∧
      s.view.entry? id = some ⟨n, c.isTaken, hn⟩ := by
  obtain ⟨c', hc', refs, -⟩ := hs.entry ht
  cases hc.symm.trans hc'
  have hn : 0 < s.users id := hs.users_pos.mpr (by rw [ht]; rfl)
  have shown : shown? c = some ⟨s.users id, c.isTaken, hn⟩ := by
    rw [← shown?_natCast hn, ← refs]
  refine ⟨s.users id, hn, refs, shown, ?_⟩
  rw [view, entry?, lookup_filterMap hs.keys (fun a => (s.cells[a]?).bind shown?), ht, Option.bind_some, hc,
    Option.bind_some, shown]

/-- Another cell in the place of that of an id shows at that id. -/
theorem IsSound.view_put (hs : s.IsSound) (ht : s.table.lookup id = some a) (c : Cell) :
    (s.put a c).view = s.view.update id (shown? c) := by
  have own := hs.lookup.mp ht
  have hlt := hs.made _ own
  obtain ⟨n, hn, -, hshown, -⟩ := hs.shown ht (List.getElem?_eq_getElem hlt)
  have new : ((s.cells.set a c)[a]?).bind shown? = shown? c := by
    rw [List.getElem?_set_self hlt]
    rfl
  rw [view_eq, view_eq, ← new]
  refine tableOf_update hs.keys (fun p hp => ?_) ((hs.entries _).mpr own) ?_ fun b hb => ?_
  · have used := (hs.entries p).mp hp
    exact ⟨fun h => hs.apart p used _ own h, fun h => congrArg Prod.snd (hs.unique used own h)⟩
  · rw [List.getElem?_eq_getElem hlt, Option.bind_some, hshown]
    rfl
  · rw [put, List.getElem?_set_ne (Ne.symm hb)]

end Crowd

/-- What a step does at a table that knows no cells. -/
def Step.atTable (id : String) (v : Locks) : Step → Locks
  | arrive .. => v.checkout id
  | acquire _ => v.acquire id
  | giveUp _ => v
  | release .. => v.release id
  | checkin _ => v.checkin id

namespace Crowd

def idOf (s : Crowd) : Step → Option String
  | .arrive _ id _ => some id
  | x => (s.find? x.who).map (·.id)

theorem IsSound.view_opened (hs : s.IsSound) (ht : s.table.lookup id = none) (hs' : List Holder) :
    (⟨s.cells ++ [⟨1, false⟩], s.table ++ [(id, s.cells.length)], hs'⟩ : Crowd).view =
      s.view.update id (some ⟨1, false, Nat.one_pos⟩) := by
  have unused : s.view.entry? id = none := by
    rw [hs.view_entry?, hs.unused ht]
    rfl
  have old : s.view = tableOf (fun b => ((s.cells ++ [⟨1, false⟩])[b]?).bind shown?) s.table := by
    refine view_eq.trans (tableOf_congr fun p hp => ?_)
    rw [List.getElem?_append_left (hs.made p ((hs.entries p).mp hp))]
  rw [update_append unused, old, view_eq, tableOf, tableOf, List.filterMap_append, List.filterMap_cons,
    List.getElem?_concat_length]
  rfl

/-- Each step does at the table what the functions of the table do. -/
theorem IsSound.view_takes (hs : s.IsSound) (hx : s.Takes x t) :
    ∃ id, s.idOf x = some id ∧ t.view = x.atTable id s.view := by
  cases hx with
  | @joined who id timeout a c hf ht hc =>
    obtain ⟨n, hn, count, -, hv⟩ := hs.shown ht hc
    refine ⟨id, rfl, (hs.view_put ht _).trans ?_⟩
    rw [count, Step.atTable, Locks.checkout, hv]
    rfl
  | @opened who id timeout hf ht =>
    refine ⟨id, rfl, (hs.view_opened ht _).trans ?_⟩
    rw [Step.atTable, Locks.checkout, hs.view_entry?, hs.unused ht]
    rfl
  | @acquired who h c hf hc hp hw hfree =>
    have ht := hs.shared (List.mem_of_find?_eq_some hf) (isIn_of_waiting hp)
    obtain ⟨n, hn, count, -, hv⟩ := hs.shown ht hc
    refine ⟨h.id, congrArg (Option.map Holder.id) hf, (hs.view_put ht _).trans ?_⟩
    rw [count, Step.atTable, Locks.acquire, hv, shown?_natCast hn]
  | @gaveUp who h e hf hp he => exact ⟨h.id, congrArg (Option.map Holder.id) hf, rfl⟩
  | @released who isRaised h c hf hc hp htaken =>
    have ht := hs.shared (List.mem_of_find?_eq_some hf) (isIn_of_holding hp)
    obtain ⟨n, hn, count, -, hv⟩ := hs.shown ht hc
    refine ⟨h.id, congrArg (Option.map Holder.id) hf, (hs.view_put ht _).trans ?_⟩
    rw [count, Step.atTable, Locks.release, hv, shown?_natCast hn]
  | @left who h r c hf hp hc hr =>
    have ht := hs.shared (List.mem_of_find?_eq_some hf) (isIn_of_leaving hp)
    obtain ⟨n, hn, count, -, hv⟩ := hs.shown ht hc
    refine ⟨h.id, congrArg (Option.map Holder.id) hf, (hs.view_put ht _).trans ?_⟩
    rw [count] at hr ⊢
    have many : 1 < n := by omega
    have less : (n : Int) - 1 = ((n - 1 : Nat) : Int) := by omega
    rw [Step.atTable, Locks.checkin, hv, less, shown?_natCast (Nat.sub_pos_of_lt many)]
    dsimp only
    rw [dif_pos many]
  | @reclaimed who h r c hf hp hc hr hthere =>
    have ht := hs.shared (List.mem_of_find?_eq_some hf) (isIn_of_leaving hp)
    obtain ⟨n, hn, count, -, hv⟩ := hs.shown ht hc
    have hlt := hs.made _ (hs.lookup.mp ht)
    have last : shown? { c with refs := c.refs - 1 } = none := by rw [hr]; rfl
    -- the cell shows nothing any more, so that its entry may go
    have filtered : tableOf (fun b => ((s.cells.set h.cell { c with refs := c.refs - 1 })[b]?).bind shown?)
        (s.table.filter (·.1 ≠ h.id)) = (s.put h.cell { c with refs := c.refs - 1 }).view := by
      refine tableOf_filter fun p hp hid => ?_
      have same : p = (h.id, h.cell) := hs.unique ((hs.entries p).mp hp) (hs.lookup.mp ht) hid
      rw [same, List.getElem?_set_self hlt]
      exact last
    refine ⟨h.id, congrArg (Option.map Holder.id) hf, (filtered.trans (hs.view_put ht _)).trans ?_⟩
    rw [last, Step.atTable, Locks.checkin, hv]
    rw [count] at hr
    have one : ¬ 1 < n := by omega
    dsimp only
    rw [dif_neg one]

/-! ## Other entries -/

def cellOf? (s : Crowd) (id : String) : Option (Nat × Cell) := do
  let a ← s.table.lookup id
  let c ← s.cells[a]?
  some (a, c)

theorem lookup_filter_ne {id' : String} (hne : id' ≠ id) :
    (table.filter (·.1 ≠ id)).lookup id' = table.lookup id' := by
  induction table with
  | nil => rfl
  | cons p table ih =>
    by_cases hp : p.1 = id
    · have hne' : (id' == p.1) = false := by simpa [hp] using hne
      rw [List.filter_cons_of_neg (by simpa using hp), List.lookup_cons, hne']
      exact ih
    · rw [List.filter_cons_of_pos (by simpa using hp), List.lookup_cons, List.lookup_cons, ih]

theorem IsSound.cellOf?_put (hs : s.IsSound) (ht : s.table.lookup id = some a) (c : Cell) {id' : String}
    (hne : id' ≠ id) : (s.put a c).cellOf? id' = s.cellOf? id' := by
  simp only [cellOf?, put]
  cases ht' : s.table.lookup id' with
  | none => rfl
  | some b =>
    have apart : a ≠ b := fun h => hne (hs.apart _ (hs.lookup.mp ht') _ (hs.lookup.mp ht) h.symm)
    simp only [Option.bind_eq_bind, Option.bind_some, List.getElem?_set_ne apart]

/-- A step leaves the cells of other ids, and their counts and locks. -/
theorem IsSound.cellOf?_takes (hs : s.IsSound) (hx : s.Takes x t) (hid : s.idOf x = some id) {id' : String}
    (hne : id' ≠ id) : t.cellOf? id' = s.cellOf? id' := by
  have about {h : Holder} {who : Nat} (hf : s.find? who = some h) (hid : (s.find? who).map (·.id) = some id) :
      id' ≠ h.id := by
    rw [hf] at hid
    cases hid
    exact hne
  cases hx with
  | joined hf ht hc =>
    cases hid
    exact hs.cellOf?_put ht _ hne
  | opened hf ht =>
    cases hid
    have absent : List.lookup id' [(id, s.cells.length)] = none := by
      have hne' : (id' == id) = false := by simpa using hne
      rw [List.lookup_cons, hne']
      rfl
    simp only [cellOf?, List.lookup_append, absent, Option.or_none]
    cases ht' : s.table.lookup id' with
    | none => rfl
    | some b =>
      have old : b < s.cells.length := hs.made _ (hs.lookup.mp ht')
      simp only [Option.bind_eq_bind, Option.bind_some, List.getElem?_append_left old]
  | acquired hf hc hp hw hfree =>
    exact hs.cellOf?_put (hs.shared (List.mem_of_find?_eq_some hf) (isIn_of_waiting hp)) _ (about hf hid)
  | gaveUp => rfl
  | released hf hc hp htaken =>
    exact hs.cellOf?_put (hs.shared (List.mem_of_find?_eq_some hf) (isIn_of_holding hp)) _ (about hf hid)
  | left hf hp hc hr =>
    exact hs.cellOf?_put (hs.shared (List.mem_of_find?_eq_some hf) (isIn_of_leaving hp)) _ (about hf hid)
  | @reclaimed who h r c hf hp hc hr hthere =>
    have ht := hs.shared (List.mem_of_find?_eq_some hf) (isIn_of_leaving hp)
    refine .trans ?_ (hs.cellOf?_put ht { c with refs := c.refs - 1 } (about hf hid))
    simp only [cellOf?, lookup_filter_ne (about hf hid)]
    rfl

/-! ## Order -/

def idsInUse (s : Crowd) : List String := ((s.holders.filter (·.isIn)).map (·.id)).dedup

/-- What the table is to those who have come. -/
structure IsOrderly (s : Crowd) : Prop where
  /-- A cell is in the table just as long as its count is positive. -/
  kept : ∀ a c, s.cells[a]? = some c → ((∃ id, s.table.lookup id = some a) ↔ 0 < c.refs)
  /-- An id has an entry just as long as somebody uses it. -/
  present : ∀ id, (s.table.lookup id).isSome = true ↔ 0 < s.users id
  /-- The cell of an id counts those who use the id, and its lock is taken while one of them holds it. -/
  entry : ∀ id a, s.table.lookup id = some a →
    ∃ c, s.cells[a]? = some c ∧ c.refs = (s.users id : Int) ∧ (c.isTaken = true ↔ s.holding id = 1)
  /-- Those who use an id share its cell. -/
  shared : ∀ h ∈ s.holders, h.isIn = true → s.table.lookup h.id = some h.cell
  /-- One at most holds a lock. -/
  exclusive : ∀ id, s.holding id ≤ 1
  /-- There are as many entries as ids in use. -/
  length : s.table.length = s.idsInUse.length ∧ s.view.length = s.table.length
  /-- Nothing is left behind. -/
  cleared : (∀ h ∈ s.holders, h.isIn = false) → s.table = []

theorem IsSound.kept (hs : s.IsSound) (hc : s.cells[a]? = some c) :
    (∃ id, s.table.lookup id = some a) ↔ 0 < c.refs := by
  rw [hs.refs a c hc, Int.natCast_pos, usersOf, List.count_pos_iff, List.mem_map]
  constructor
  · rintro ⟨id, ht⟩
    exact ⟨(id, a), hs.lookup.mp ht, rfl⟩
  · rintro ⟨⟨id, b⟩, hm, rfl⟩
    exact ⟨id, hs.lookup.mpr hm⟩

theorem IsSound.table_length (hs : s.IsSound) : s.table.length = s.idsInUse.length := by
  have ids : (usesOf s.holders).map (·.1) = (s.holders.filter (·.isIn)).map (·.id) := by
    rw [usesOf, List.map_map]
    rfl
  rw [← List.length_map (·.1)]
  refine ((List.perm_ext_iff_of_nodup hs.keys (List.nodup_dedup _)).mpr fun id => ?_).length_eq
  rw [List.mem_dedup, ← ids, List.mem_map, List.mem_map]
  simp only [hs.entries]

theorem IsSound.view_length (hs : s.IsSound) : s.view.length = s.table.length := by
  rw [view, List.length_filterMap_eq_countP, List.countP_eq_length]
  intro p hp
  have ht := hs.lookup.mpr ((hs.entries p).mp hp)
  obtain ⟨c, hc, -⟩ := hs.entry ht
  obtain ⟨n, hn, -, shown, -⟩ := hs.shown ht hc
  rw [hc, Option.bind_some, shown]
  rfl

theorem IsSound.orderly (hs : s.IsSound) : s.IsOrderly where
  kept a c := hs.kept
  present id := hs.users_pos.symm
  entry id a ht := by
    obtain ⟨c, hc, refs, taken⟩ := hs.entry ht
    refine ⟨c, hc, refs, ?_⟩
    rw [← taken]
    cases c.isTaken <;> simp
  shared h := hs.shared
  exclusive := hs.exclusive
  length := ⟨hs.table_length, hs.view_length⟩
  cleared hout := by
    refine List.eq_nil_iff_forall_not_mem.mpr fun p hp => ?_
    obtain ⟨h, hm, hin, -⟩ := mem_usesOf.mp ((hs.entries p).mp hp)
    rw [hout h hm] at hin
    cases hin

end Crowd

end LoanLedger.Locks
