import LoanLedger.Ledger.Session

/-!
# Sequences

* `Sequence.ofLoan loanId` : the name of the sequence that numbers the audit log of a loan;
* `Sequence.next name` : the next number of a sequence, from 1 on; taken back with the transaction;
* `Sequence.current name` : the last number that was given.
-/

namespace LoanLedger.Ledger.Sequence

def ofLoan (loanId : String) : String :=
  "loan_audit:" ++ loanId

def locked (name : String) : Work (Option Counter) :=
  call .lockedCounter none (query (·.counter? name))

/-- Writes that a number was given. -/
def noteAllocated (name : String) (value : Int) : Work Unit :=
  emit .debug "services.sequence" "sequence_allocated"
    [("sequence_name", .text name), ("value", .int value)]

def raise (c : Counter) : Work Int := do
  let value := c.value + 1
  change fun t =>
    if Column.fitsInteger value then .ok (t.setCounter c.name value) else .error .tooLarge
  noteAllocated c.name value
  pure value

/-- The next number after somebody else made the counter. -/
def afterRace (name : String) : Work Int := do
  emit .debug "services.sequence" "sequence_counter_race_retry" [("sequence_name", .text name)]
  match ← locked name with
  | some c => raise c
  | none => throw (.storage .conflict)

/-- The next number of a sequence; its counter is made at first use. -/
def next (name : String) : Work Int := do
  match ← locked name with
  | some c => raise c
  | none =>
    let isFirst ← savepoint (do insert (·.addCounter? ⟨name, 1⟩); pure true) (pure false)
    if isFirst then
      noteAllocated name 1
      pure 1
    else afterRace name

def current (name : String) : Work (Option Int) := do
  pure ((← query (·.counter? name)).map (·.value))

end LoanLedger.Ledger.Sequence
