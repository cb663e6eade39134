import LoanLedger.Ledger.Sequence

/-!
# The rows of some loans

* `Tables.select t isOf isNamed` : the rows of some loans, and the counters with some names; `Tables.only`,
  `Tables.others` : those of one loan, and those of all others;
* `select_loan?`, `select_newest?`, … : what is asked about a loan that is selected is answered from the
  selected rows alone; for keys and ids this takes that no other loan has them;
* `select_addEntry`, `select_changeLoan`, … : a change of such a loan changes the selected rows likewise;
* `addEntry_outside`, `changeLoan_outside`, … : a change of another loan leaves them.
-/

namespace LoanLedger.Ledger

namespace Tables

variable {t t' : Tables} {isOf isNamed : String → Bool} {loanId name : String}

def select (t : Tables) (isOf isNamed : String → Bool) : Tables where
  loans := t.loans.filter fun l => isOf l.loanId
  entries := t.entries.filter fun e => isOf e.loanId
  counters := t.counters.filter fun c => isNamed c.name
  disbursements := t.disbursements.filter fun d => isOf d.loanId

def only (t : Tables) (loanId : String) : Tables :=
  t.select (· = loanId) (· = Sequence.ofLoan loanId)

def others (t : Tables) (loanId : String) : Tables :=
  t.select (· ≠ loanId) (· ≠ Sequence.ofLoan loanId)

theorem ofLoan_inj {a b : String} (h : Sequence.ofLoan a = Sequence.ofLoan b) : a = b :=
  String.append_right_inj _ |>.mp h

/-- The rows of a loan are among those of all but another one. -/
theorem only_others {other : String} (h : loanId ≠ other) (t : Tables) :
    (t.others other).only loanId = t.only loanId := by
  have name : Sequence.ofLoan loanId ≠ Sequence.ofLoan other := fun hn => h (ofLoan_inj hn)
  have ids : ∀ x : String, (decide (x = loanId) && decide (x ≠ other)) = decide (x = loanId) := fun x => by grind
  have names : ∀ x : String, (decide (x = Sequence.ofLoan loanId) && decide (x ≠ Sequence.ofLoan other)) =
      decide (x = Sequence.ofLoan loanId) := fun x => by grind
  simp only [only, others, select, List.filter_filter, ids, names]

/-! ## Lists -/

section Lists

variable {α : Type} {p q : α → Bool} {f : α → α} {l : List α}

theorem find?_filter_of (h : ∀ a ∈ l, q a → p a) : (l.filter p).find? q = l.find? q := by
  induction l with
  | nil => rfl
  | cons a l ih =>
    have ih := ih fun b hb => h b (List.mem_cons_of_mem _ hb)
    by_cases hp : p a
    · rw [List.filter_cons_of_pos hp, List.find?_cons, List.find?_cons, ih]
    · have hq : ¬ q a := fun hq => hp (h a List.mem_cons_self hq)
      rw [List.filter_cons_of_neg hp, List.find?_cons_of_neg hq, ih]

theorem any_filter_of (h : ∀ a ∈ l, q a → p a) : (l.filter p).any q = l.any q := by
  rw [← List.isSome_find?, ← List.isSome_find?, find?_filter_of h]

theorem filter_map_of (h : ∀ a, p (f a) = p a) (l : List α) : (l.map f).filter p = (l.filter p).map f := by
  rw [List.filter_map]
  congr 2
  exact funext h

theorem filter_map_outside (h : ∀ a, p (f a) = p a) (hf : ∀ a ∈ l, p a → f a = a) :
    (l.map f).filter p = l.filter p := by
  rw [filter_map_of h]
  exact (List.map_congr_left fun a ha => hf a (List.mem_filter.mp ha).1 (List.mem_filter.mp ha).2).trans
    (List.map_id' _)

theorem filter_concat_pos {a : α} (h : p a) : (l ++ [a]).filter p = l.filter p ++ [a] := by
  rw [List.filter_append, List.filter_cons_of_pos h, List.filter_nil]

theorem filter_concat_neg {a : α} (h : ¬ p a) : (l ++ [a]).filter p = l.filter p := by
  rw [List.filter_append, List.filter_cons_of_neg h, List.filter_nil, List.append_nil]

end Lists

/-! ## Loans -/

theorem select_loan? (h : isOf loanId) : (t.select isOf isNamed).loan? loanId = t.loan? loanId :=
  find?_filter_of fun l _ hl => by rwa [of_decide_eq_true hl]

theorem select_addLoan {l : Loan} (h : isOf l.loanId) :
    (t.select isOf isNamed).addLoan? l = (t.addLoan? l).map (·.select isOf isNamed) := by
  unfold addLoan?
  rw [select_loan? h]
  split
  · rfl
  · simp only [select, Option.map_some, filter_concat_pos (p := fun l : Loan => isOf l.loanId) h]

theorem addLoan_outside {l : Loan} (h : ¬ isOf l.loanId) (ha : t.addLoan? l = some t') :
    t'.select isOf isNamed = t.select isOf isNamed := by
  obtain ⟨-, rfl⟩ := addLoan?_eq_some.mp ha
  simp only [select, filter_concat_neg (p := fun l : Loan => isOf l.loanId) h]

section Changes

variable {change : Loan → Loan}

theorem changeLoan_loanId (h : ∀ l, (change l).loanId = l.loanId) (l : Loan) :
    (if l.loanId = loanId then change l else l).loanId = l.loanId := by
  split
  · exact h l
  · rfl

theorem select_changeLoan (h : ∀ l, (change l).loanId = l.loanId) (t : Tables) (loanId : String) :
    (t.changeLoan loanId change).select isOf isNamed = (t.select isOf isNamed).changeLoan loanId change := by
  simp only [changeLoan, select,
    filter_map_of (p := fun l : Loan => isOf l.loanId) fun l => congrArg isOf (changeLoan_loanId h l)]

theorem changeLoan_outside (h : ∀ l, (change l).loanId = l.loanId) (t : Tables) (ho : ¬ isOf loanId) :
    (t.changeLoan loanId change).select isOf isNamed = t.select isOf isNamed := by
  have stays (l : Loan) (hl : isOf l.loanId) : (if l.loanId = loanId then change l else l) = l :=
    if_neg fun he : l.loanId = loanId => ho (he ▸ hl)
  simp only [changeLoan, select,
    filter_map_outside (p := fun l : Loan => isOf l.loanId) (fun l => congrArg isOf (changeLoan_loanId h l)) fun l _ =>
      stays l]

end Changes

/-! ## Entries -/

theorem select_entriesOf (h : isOf loanId) : (t.select isOf isNamed).entriesOf loanId = t.entriesOf loanId := by
  have both : ∀ e : Entry, (decide (e.loanId = loanId) && isOf e.loanId) = decide (e.loanId = loanId) := fun e => by
    by_cases he : e.loanId = loanId
    · simp [he, h]
    · simp [he]
  simp only [entriesOf, select, List.filter_filter, both]

theorem select_newest? (h : isOf loanId) : (t.select isOf isNamed).newest? loanId = t.newest? loanId := by
  rw [newest?, select_entriesOf h, newest?]

theorem select_entryAt? (h : isOf loanId) (seq : Int) :
    (t.select isOf isNamed).entryAt? loanId seq = t.entryAt? loanId seq :=
  find?_filter_of fun e _ he => by
    rw [Bool.and_eq_true, decide_eq_true_eq] at he
    rwa [he.1]

theorem select_entryByKey? {key : String} (h : ∀ e ∈ t.entries, e.key = some key → isOf e.loanId) :
    (t.select isOf isNamed).entryByKey? key = t.entryByKey? key :=
  find?_filter_of fun e he hk => h e he (of_decide_eq_true hk)

theorem select_isTaken {e : Entry} (h : isOf e.loanId)
    (hk : ∀ x ∈ t.entries, ∀ key, e.key = some key → x.key = some key → isOf x.loanId) :
    (t.select isOf isNamed).isTaken e = t.isTaken e := by
  unfold isTaken
  rw [select_entryAt? h]
  cases he : e.key with
  | none => rfl
  | some key =>
    rw [Option.any_some, Option.any_some, select_entryByKey? fun x hx => hk x hx key he]

theorem select_addEntry {e : Entry} (h : isOf e.loanId)
    (hk : ∀ x ∈ t.entries, ∀ key, e.key = some key → x.key = some key → isOf x.loanId) :
    Tables.addEntry? (t.select isOf isNamed) e = ( t.addEntry? e).map (·.select isOf isNamed) := by
  unfold addEntry?
  rw [select_isTaken h hk]
  split
  · rfl
  · simp only [select, Option.map_some, filter_concat_pos (p := fun e : Entry => isOf e.loanId) h]

theorem addEntry_outside {e : Entry} (h : ¬ isOf e.loanId) (ha : t.addEntry? e = some t') :
    t'.select isOf isNamed = t.select isOf isNamed := by
  obtain ⟨-, rfl⟩ := addEntry?_eq_some.mp ha
  simp only [select, filter_concat_neg (p := fun e : Entry => isOf e.loanId) h]

/-! ## Counters -/

theorem select_counter? (h : isNamed name) : (t.select isOf isNamed).counter? name = t.counter? name :=
  find?_filter_of fun c _ hc => by rwa [of_decide_eq_true hc]

theorem select_addCounter {c : Counter} (h : isNamed c.name) :
    (t.select isOf isNamed).addCounter? c = (t.addCounter? c).map (·.select isOf isNamed) := by
  unfold addCounter?
  rw [select_counter? h]
  split
  · rfl
  · simp only [select, Option.map_some, filter_concat_pos (p := fun c : Counter => isNamed c.name) h]

theorem addCounter_outside {c : Counter} (h : ¬ isNamed c.name) (ha : t.addCounter? c = some t') :
    t'.select isOf isNamed = t.select isOf isNamed := by
  obtain ⟨-, rfl⟩ := addCounter?_eq_some.mp ha
  simp only [select, filter_concat_neg (p := fun c : Counter => isNamed c.name) h]

theorem setCounter_name (name : String) (value : Int) (c : Counter) :
    (if c.name = name then { c with value } else c).name = c.name := by
  split <;> rfl

theorem select_setCounter (t : Tables) (name : String) (value : Int) :
    (t.setCounter name value).select isOf isNamed = (t.select isOf isNamed).setCounter name value := by
  simp only [setCounter, select,
    filter_map_of (p := fun c : Counter => isNamed c.name) fun c => congrArg isNamed (setCounter_name name value c)]

theorem setCounter_outside (h : ¬ isNamed name) (t : Tables) (value : Int) :
    (t.setCounter name value).select isOf isNamed = t.select isOf isNamed := by
  have stays (c : Counter) (hc : isNamed c.name) : (if c.name = name then { c with value } else c) = c :=
    if_neg fun he : c.name = name => h (he ▸ hc)
  simp only [setCounter, select, filter_map_outside (p := fun c : Counter => isNamed c.name)
    (fun c => congrArg isNamed (setCounter_name name value c)) fun c _ => stays c]

/-! ## Disbursements -/

theorem select_disbursementFor? (h : isOf loanId) (kind : Tranche) :
    (t.select isOf isNamed).disbursementFor? loanId kind = t.disbursementFor? loanId kind :=
  find?_filter_of fun d _ hd => by
    rw [Bool.and_eq_true, decide_eq_true_eq] at hd
    rwa [hd.1]

theorem select_disbursement? (h : isOf loanId) (id : String) :
    (t.select isOf isNamed).disbursement? loanId id = t.disbursement? loanId id :=
  find?_filter_of fun d _ hd => by
    rw [Bool.and_eq_true, decide_eq_true_eq] at hd
    rwa [hd.1]

theorem select_addDisbursement {d : Disbursement} (h : isOf d.loanId)
    (hid : ∀ x ∈ t.disbursements, x.id = d.id → isOf x.loanId) :
    (t.select isOf isNamed).addDisbursement? d = (t.addDisbursement? d).map (·.select isOf isNamed) := by
  have taken : (t.select isOf isNamed).disbursements.any (·.id = d.id) = t.disbursements.any (·.id = d.id) :=
    any_filter_of fun x hx he => hid x hx (of_decide_eq_true he)
  unfold addDisbursement?
  rw [taken, select_disbursementFor? h]
  split
  · rfl
  · simp only [select, Option.map_some, filter_concat_pos (p := fun d : Disbursement => isOf d.loanId) h]

theorem addDisbursement_outside {d : Disbursement} (h : ¬ isOf d.loanId) (ha : t.addDisbursement? d = some t') :
    t'.select isOf isNamed = t.select isOf isNamed := by
  obtain ⟨-, rfl⟩ := addDisbursement?_eq_some.mp ha
  simp only [select, filter_concat_neg (p := fun d : Disbursement => isOf d.loanId) h]

section Changes

variable {change : Disbursement → Disbursement} {id : String}

theorem changeDisbursement_loanId (h : ∀ d, (change d).loanId = d.loanId) (d : Disbursement) :
    (if d.id = id then change d else d).loanId = d.loanId := by
  split
  · exact h d
  · rfl

theorem select_changeDisbursement (h : ∀ d, (change d).loanId = d.loanId) (t : Tables) (id : String) :
    (t.changeDisbursement id change).select isOf isNamed = (t.select isOf isNamed).changeDisbursement id change := by
  simp only [changeDisbursement, select,
    filter_map_of (p := fun d : Disbursement => isOf d.loanId) fun d => congrArg isOf (changeDisbursement_loanId h d)]

theorem changeDisbursement_outside (h : ∀ d, (change d).loanId = d.loanId)
    (hid : ∀ x ∈ t.disbursements, x.id = id → ¬ isOf x.loanId) :
    (t.changeDisbursement id change).select isOf isNamed = t.select isOf isNamed := by
  have stays (d : Disbursement) (hd : d ∈ t.disbursements) (ho : isOf d.loanId) :
      (if d.id = id then change d else d) = d :=
    if_neg fun he => hid d hd he ho
  simp only [changeDisbursement, select, filter_map_outside (p := fun d : Disbursement => isOf d.loanId)
    (fun d => congrArg isOf (changeDisbursement_loanId h d)) stays]

end Changes

end Tables

end LoanLedger.Ledger
