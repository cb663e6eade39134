import LoanLedger.Ledger.Row

/-!
# Tables of the ledger

* `Tables` : the rows of loans, audit entries, sequence counters and disbursements, in the order in
  which they were put in;
* `loan?`, `entriesOf`, `entryByKey?`, `counter?`, `disbursementFor?`, … : what the tables hold;
* `addLoan?`, `addEntry?`, `addCounter?`, `addDisbursement?` : the tables with one more row, unless a
  row with the same unique key is there: a loan id, a place in a log, an idempotency key, a counter
  name, a disbursement id, or a loan and tranche; `addLoan?_eq_some`, … : when there is none;
* `changeLoan`, `setCounter`, `changeDisbursement` : the tables with a row changed.
-/

namespace LoanLedger.Ledger

/-- A sequence and the last number that it gave. -/
structure Counter where
  name : String
  value : Int
  deriving Repr, DecidableEq

structure Tables where
  loans : List Loan
  entries : List Entry
  counters : List Counter
  disbursements : List Disbursement

namespace Tables

def empty : Tables := ⟨[], [], [], []⟩

/-! ## Loans -/

def loan? (t : Tables) (loanId : String) : Option Loan :=
  t.loans.find? (·.loanId = loanId)

def addLoan? (t : Tables) (l : Loan) : Option Tables :=
  if (t.loan? l.loanId).isSome then none else some { t with loans := t.loans ++ [l] }

theorem addLoan?_eq_some {t t' : Tables} {l : Loan} :
    t.addLoan? l = some t' ↔ t.loan? l.loanId = none ∧ t' = { t with loans := t.loans ++ [l] } := by
  unfold addLoan?
  cases t.loan? l.loanId <;> simp [eq_comm]

def changeLoan (t : Tables) (loanId : String) (change : Loan → Loan) : Tables :=
  { t with loans := t.loans.map fun l => if l.loanId = loanId then change l else l }

/-! ## Audit entries -/

def entriesOf (t : Tables) (loanId : String) : List Entry :=
  (t.entries.filter (·.loanId = loanId)).mergeSort fun a b => a.seq ≤ b.seq

def entryAt? (t : Tables) (loanId : String) (seq : Int) : Option Entry :=
  t.entries.find? fun e => e.loanId = loanId && e.seq = seq

def newest? (t : Tables) (loanId : String) : Option Entry :=
  (t.entriesOf loanId).getLast?

def entryByKey? (t : Tables) (key : String) : Option Entry :=
  t.entries.find? (·.key = some key)

def isTaken (t : Tables) (e : Entry) : Bool :=
  (t.entryAt? e.loanId e.seq).isSome || e.key.any fun k => (t.entryByKey? k).isSome

def addEntry? (t : Tables) (e : Entry) : Option Tables :=
  if t.isTaken e then none else some { t with entries := t.entries ++ [e] }

theorem addEntry?_eq_some {t t' : Tables} {e : Entry} :
    t.addEntry? e = some t' ↔ t.isTaken e = false ∧ t' = { t with entries := t.entries ++ [e] } := by
  unfold addEntry?
  cases t.isTaken e <;> simp [eq_comm]

/-- The tables without the entry at a place in the log of a loan. -/
def removeEntry (t : Tables) (loanId : String) (seq : Int) : Tables :=
  { t with entries := t.entries.filter fun e => !(e.loanId = loanId && e.seq = seq) }

/-- The tables with another entry at the place of one, unless its own place or key is taken. -/
def replaceEntry? (t : Tables) (loanId : String) (seq : Int) (e : Entry) : Option Tables :=
  if (t.removeEntry loanId seq).isTaken e then none
  else
    let swap (x : Entry) : Entry := if x.loanId = loanId && x.seq = seq then e else x
    some { t with entries := t.entries.map swap }

/-! ## Counters -/

def counter? (t : Tables) (name : String) : Option Counter :=
  t.counters.find? (·.name = name)

def addCounter? (t : Tables) (c : Counter) : Option Tables :=
  if (t.counter? c.name).isSome then none else some { t with counters := t.counters ++ [c] }

theorem addCounter?_eq_some {t t' : Tables} {c : Counter} :
    t.addCounter? c = some t' ↔ t.counter? c.name = none ∧ t' = { t with counters := t.counters ++ [c] } := by
  unfold addCounter?
  cases t.counter? c.name <;> simp [eq_comm]

def setCounter (t : Tables) (name : String) (value : Int) : Tables :=
  { t with counters := t.counters.map fun c => if c.name = name then { c with value } else c }

/-! ## Disbursements -/

def disbursementFor? (t : Tables) (loanId : String) (kind : Tranche) : Option Disbursement :=
  t.disbursements.find? fun d => d.loanId = loanId && d.kind = kind

def disbursement? (t : Tables) (loanId id : String) : Option Disbursement :=
  t.disbursements.find? fun d => d.loanId = loanId && d.id = id

/-- Whether a disbursement comes before another one: the older first, then by the word of its
tranche. -/
def comesBefore (a b : Disbursement) : Bool :=
  a.createdAt.instant < b.createdAt.instant ||
    (a.createdAt.instant = b.createdAt.instant && a.kind.word ≤ b.kind.word)

def disbursementsOf (t : Tables) (loanId : String) : List Disbursement :=
  (t.disbursements.filter (·.loanId = loanId)).mergeSort comesBefore

def addDisbursement? (t : Tables) (d : Disbursement) : Option Tables :=
  if t.disbursements.any (·.id = d.id) || (t.disbursementFor? d.loanId d.kind).isSome then none
  else some { t with disbursements := t.disbursements ++ [d] }

theorem addDisbursement?_eq_some {t t' : Tables} {d : Disbursement} :
    t.addDisbursement? d = some t' ↔
      ((∀ x ∈ t.disbursements, x.id ≠ d.id) ∧ t.disbursementFor? d.loanId d.kind = none) ∧
        t' = { t with disbursements := t.disbursements ++ [d] } := by
  rw [show (∀ x ∈ t.disbursements, x.id ≠ d.id) ↔ t.disbursements.any (·.id = d.id) = false by simp]
  unfold addDisbursement?
  cases t.disbursements.any (·.id = d.id) <;> cases t.disbursementFor? d.loanId d.kind <;> simp [eq_comm]

def changeDisbursement (t : Tables) (id : String) (change : Disbursement → Disbursement) : Tables :=
  { t with disbursements := t.disbursements.map fun d => if d.id = id then change d else d }

end Tables

end LoanLedger.Ledger
