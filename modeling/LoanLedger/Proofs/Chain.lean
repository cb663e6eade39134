import LoanLedger.Proofs.Calls

/-!
# Logs are numbered and chained

* `Tables.logOf t loanId` : the entries of a loan in the order in which they were committed;
* `Chain es` : entries numbered from 1 on, each stored as it was made and sealed behind the one before;
* `Chained t` : so is the log of every loan, and its counter holds its length;
* `Chained.appended`, `Chained.told` : an accepted entry, and every call of the engine, keeps that.
-/

namespace LoanLedger.Ledger

variable {t t' : Tables} {loanId : String} {es : List Entry} {e : Entry}

def Tables.logOf (t : Tables) (loanId : String) : List Entry :=
  t.entries.filter (·.loanId = loanId)

/-- Entries numbered from 1 on, each sealed behind the one before. -/
inductive Chain : List Entry → Prop where
  | nil : Chain []
  | snoc {es : List Entry} {e : Entry} : Chain es → e.seq = es.length + 1 → e.IsPlain →
    e.IsSealed (es.getLast?.map (·.hash)) → Chain (es ++ [e])

/-! ## Numbers -/

theorem Chain.numbers (h : Chain es) : es.map (·.seq) = (List.range es.length).map fun i : Nat => (i : Int) + 1 := by
  induction h with
  | nil => rfl
  | snoc _ hs _ _ ih => simp [List.range_succ, ih, hs]

theorem Chain.sealed (h : Chain es) : ∀ x ∈ es, ∃ prevHash, x.IsSealed prevHash := by
  induction h with
  | nil => exact List.forall_mem_nil _
  | snoc _ _ _ hs ih =>
    intro x hx
    rcases List.mem_append.mp hx with hx | hx
    · exact ih x hx
    · exact ⟨_, List.mem_singleton.mp hx ▸ hs⟩

theorem Chain.isPlain (h : Chain es) : ∀ x ∈ es, x.IsPlain := by
  induction h with
  | nil => exact List.forall_mem_nil _
  | snoc _ _ hp _ ih => exact List.forall_mem_append.mpr ⟨ih, List.forall_mem_singleton.mpr hp⟩

theorem Chain.seq_le (h : Chain es) : ∀ e ∈ es, e.seq ≤ es.length := by
  intro e he
  have hm : e.seq ∈ es.map (·.seq) := List.mem_map_of_mem he
  rw [h.numbers, List.mem_map] at hm
  obtain ⟨i, hi, hs⟩ := hm
  rw [List.mem_range] at hi
  omega

theorem Chain.sorted (h : Chain es) : es.Pairwise fun a b => a.seq ≤ b.seq := by
  induction h with
  | nil => exact .nil
  | snoc h hs _ _ ih =>
    refine List.pairwise_append.mpr ⟨ih, List.pairwise_singleton _ _, fun a ha b hb => ?_⟩
    rw [List.mem_singleton.mp hb, hs]
    have := h.seq_le a ha
    omega

/-- Where numbers do not fall, the entries of a loan by their place are those in the order of commitment. -/
theorem entriesOf_of_sorted (h : (t.logOf loanId).Pairwise fun a b => a.seq ≤ b.seq) :
    t.entriesOf loanId = t.logOf loanId :=
  List.mergeSort_of_pairwise (h.imp fun h => decide_eq_true h)

theorem entriesOf_eq (h : Chain (t.logOf loanId)) : t.entriesOf loanId = t.logOf loanId :=
  entriesOf_of_sorted h.sorted

/-! ## Links -/

theorem Chain.links (h : Chain es) :
    ∀ i e, es[i]? = some e → e.prevHash = if i = 0 then none else es[i - 1]?.map (·.hash) := by
  induction h with
  | nil => intro i e hi; simp at hi
  | @snoc es e h _ _ hl ih =>
    intro i x hi
    rcases Nat.lt_trichotomy i es.length with hlt | rfl | hgt
    · rw [List.getElem?_append_left hlt] at hi
      rw [ih i x hi, List.getElem?_append_left (by omega)]
    · rw [List.getElem?_append_right (Nat.le_refl _), Nat.sub_self] at hi
      cases hi
      rw [hl.prevHash, List.getLast?_eq_getElem?]
      split
      · next hz => rw [List.length_eq_zero_iff.mp hz]; rfl
      · rw [List.getElem?_append_left (by omega)]
    · rw [List.getElem?_eq_none (by simp; omega)] at hi
      cases hi

theorem firstBreak?_cons (prevHash : Option String) (e : Entry) (es : List Entry)
    (h : AuditLog.checkEntry prevHash e = .ok none) :
    AuditLog.firstBreak? prevHash (e :: es) = AuditLog.firstBreak? (some e.hash) es := by
  rw [AuditLog.firstBreak?, h]
  rfl

theorem checkEntry_of_firstBreak? {prevHash : Option String}
    (h : AuditLog.firstBreak? prevHash (e :: es) = .ok none) : AuditLog.checkEntry prevHash e = .ok none := by
  rw [AuditLog.firstBreak?] at h
  obtain ⟨b, hc, h⟩ := bind_ok h
  cases b with
  | none => exact hc
  | some b => cases h

/-- Behind a sound part, the first break is that of the rest. -/
theorem firstBreak?_append {prevHash : Option String} (h : AuditLog.firstBreak? prevHash es = .ok none)
    (rest : List Entry) :
    AuditLog.firstBreak? prevHash (es ++ rest) =
      AuditLog.firstBreak? (es.getLast?.elim prevHash fun x => some x.hash) rest := by
  induction es generalizing prevHash with
  | nil => rfl
  | cons x es ih =>
    have hx := checkEntry_of_firstBreak? h
    rw [firstBreak?_cons _ _ _ hx] at h
    rw [List.cons_append, firstBreak?_cons _ _ _ hx, ih h]
    cases es with
    | nil => rfl
    | cons y es => rw [List.getLast?_cons_cons, List.getLast?_eq_some_getLast (by simp)]; rfl

theorem firstBreak?_behind (h : AuditLog.firstBreak? none es = .ok none) (rest : List Entry) :
    AuditLog.firstBreak? none (es ++ rest) = AuditLog.firstBreak? (es.getLast?.map (·.hash)) rest := by
  rw [firstBreak?_append h]
  cases es.getLast? <;> rfl

theorem Chain.sound (h : Chain es) : AuditLog.firstBreak? none es = .ok none := by
  induction h with
  | nil => rfl
  | @snoc es e _ _ _ hl ih =>
    rw [firstBreak?_behind ih]
    exact firstBreak?_cons _ e [] (Entry.checkEntry_of_sealed hl)

/-! ## All logs -/

/-- The counter of a sequence that gave so many numbers. -/
def Counter.after (name : String) (n : Nat) : Option Counter :=
  if n = 0 then none else some ⟨name, n⟩

/-- The log of every loan is numbered and chained, and its counter holds its length. -/
structure Chained (t : Tables) : Prop where
  chain : ∀ loanId, Chain (t.logOf loanId)
  counter : ∀ loanId, t.counter? (Sequence.ofLoan loanId) =
    Counter.after (Sequence.ofLoan loanId) (t.logOf loanId).length

theorem chained_empty : Chained .empty where
  chain _ := .nil
  counter _ := rfl

theorem Chained.of_same (h : Chained t) (he : t'.entries = t.entries) (hc : t'.counters = t.counters) :
    Chained t' where
  chain loanId := by
    rw [Tables.logOf, he]
    exact h.chain loanId
  counter loanId := by
    rw [Tables.counter?, hc, Tables.logOf, he]
    exact h.counter loanId

theorem ofLoan_inj {a b : String} (h : Sequence.ofLoan a = Sequence.ofLoan b) : a = b := by
  exact (String.append_right_inj _).mp h

theorem counter?_counted (t : Tables) (name other : String) :
    (t.counted name).counter? other =
      if other = name then some ⟨name, t.nextNumber name⟩ else t.counter? other := by
  unfold Tables.counted Tables.nextNumber
  cases hc : t.counter? name with
  | none =>
    have ha : Tables.counter? { t with counters := t.counters ++ [⟨name, 1⟩] } other =
        (t.counter? other).or (if name = other then some ⟨name, 1⟩ else none) := by
      rw [Tables.counter?, List.find?_append]
      by_cases hn : name = other <;> simp [hn, Tables.counter?]
    rw [ha]
    by_cases hn : other = name
    · rw [hn, hc, if_pos rfl]
      rfl
    · rw [if_neg hn, if_neg (Ne.symm hn), Option.or_none]
  | some c =>
    have hp : ((fun x : Counter => decide (x.name = other)) ∘
        fun x => if x.name = name then { x with value := c.value + 1 } else x) =
        fun x => decide (x.name = other) := by
      funext x
      by_cases hx : x.name = name <;> simp [hx]
    have hf : (t.setCounter name (c.value + 1)).counter? other =
        (t.counter? other).map fun x => if x.name = name then { x with value := c.value + 1 } else x := by
      rw [Tables.counter?, Tables.setCounter, List.find?_map, hp]
      rfl
    dsimp only
    rw [hf]
    by_cases hn : other = name
    · rw [hn, hc, if_pos rfl, Option.map_some, if_pos (Tables.counter?_name hc), Tables.counter?_name hc]
    · rw [if_neg hn]
      cases ho : t.counter? other with
      | none => rfl
      | some x => rw [Option.map_some, if_neg (Tables.counter?_name ho ▸ hn)]

theorem logOf_logged (t : Tables) (e : Entry) (loanId : String) :
    (t.logged e).logOf loanId = t.logOf loanId ++ if e.loanId = loanId then [e] else [] := by
  rw [Tables.logOf, Tables.logged, List.filter_append]
  by_cases h : e.loanId = loanId <;> simp [h, Tables.logOf]

theorem logOf_of_entries (h : t'.entries = t.entries) (loanId : String) : t'.logOf loanId = t.logOf loanId := by
  rw [Tables.logOf, Tables.logOf, h]

theorem Appended.logOf {r : AuditRecord} (h : Appended loanId r t e t') : t'.logOf loanId = t.logOf loanId ++ [e] := by
  rw [h.tables, logOf_logged, if_pos h.ofLoan]

theorem Appended.logOf_other {r : AuditRecord} {other : String} (h : Appended loanId r t e t')
    (ho : other ≠ loanId) : t'.logOf other = t.logOf other := by
  rw [h.tables, logOf_logged, if_neg (fun he => ho (he.symm.trans h.ofLoan)), List.append_nil]

theorem Remarked.logOf_other {other : String} (h : Remarked loanId t t') (ho : other ≠ loanId) :
    t'.logOf other = t.logOf other := by
  induction h with
  | same hs => exact logOf_of_entries hs.entries other
  | append _ _ ha hs ih => rw [logOf_of_entries hs.entries, ha.logOf_other ho, ih]

theorem Chained.nextNumber (h : Chained t) (loanId : String) :
    t.nextNumber (Sequence.ofLoan loanId) = (t.logOf loanId).length + 1 := by
  rw [Tables.nextNumber, h.counter loanId, Counter.after]
  by_cases hz : (t.logOf loanId).length = 0
  · rw [if_pos hz, hz]
    rfl
  · rw [if_neg hz]

theorem Chained.newest? (h : Chained t) (loanId : String) :
    t.newest? loanId = (t.logOf loanId).getLast? := by
  rw [Tables.newest?, entriesOf_eq (h.chain loanId)]

/-- An accepted entry keeps logs numbered and chained. -/
theorem Chained.appended {r : AuditRecord} (h : Chained t) (ha : Appended loanId r t e t') : Chained t' where
  chain other := by
    rw [ha.tables, logOf_logged]
    split
    · next ho =>
      obtain rfl : loanId = other := ha.ofLoan.symm.trans ho
      refine .snoc (h.chain loanId) ?_ ha.isPlain ?_
      · rw [ha.seq, h.nextNumber]
      · rw [← h.newest?]
        exact ha.isSealed
    · rw [List.append_nil]
      exact h.chain other
  counter other := by
    have hc : t'.counter? (Sequence.ofLoan other) =
        (t.counted (Sequence.ofLoan loanId)).counter? (Sequence.ofLoan other) := by
      rw [ha.tables, Tables.logged, ha.ofLoan]
      rfl
    rw [hc, counter?_counted, ha.tables, logOf_logged, ha.ofLoan]
    split
    · next ho =>
      obtain rfl := ofLoan_inj ho
      rw [h.nextNumber, if_pos rfl, List.length_append, Counter.after, if_neg (by simp)]
      simp
    · next ho =>
      rw [if_neg (fun he => ho (congrArg Sequence.ofLoan he.symm)), List.append_nil]
      exact h.counter other

theorem Chained.remarked (h : Chained t) (hr : Remarked loanId t t') : Chained t' := by
  induction hr with
  | same hs => exact h.of_same hs.entries hs.counters
  | append _ _ ha hs ih => exact (ih.appended ha).of_same hs.entries hs.counters

theorem Chained.told {g : Engine} {c : Engine.Call} {a : Engine.Answer} (h : Chained t)
    (ht : g.Told t c a t') : Chained t' := by
  cases ht with
  | @opened loanId founderId _ _ _ _ _ ha =>
    have h' : Chained { t with loans := t.loans ++ [Loans.initial loanId founderId g.definition] } :=
      h.of_same rfl rfl
    exact h'.appended ha
  | ignored _ _ _ ha => exact h.appended ha
  | applied _ _ _ hr hm ha => exact ((h.remarked hr).of_same hm.entries hm.counters).appended ha
  | paid _ hr => exact h.remarked hr

end LoanLedger.Ledger
