import LoanLedger.Ledger.AuditLog
import LoanLedger.Workflow.Basic

/-!
# Loans

* `Loans.get loanId fresh`, `Loans.require loanId fresh` : a loan as the session knows it, or, when
  it is to be fresh, as its row says;
* `Loans.open_ loanId founderId definition actor` : a new loan in the initial state, with the first
  entry of its log;
* `Loans.updateState loanId state expected` : moves a loan, unless it is not in the expected state or
  its row was changed by somebody else since it was read.
-/

namespace LoanLedger.Ledger.Loans

def remember (l : Loan) (k : Known) : Known :=
  { k with loans := l :: k.loans.filter (·.loanId ≠ l.loanId) }

def get (loanId : String) (fresh : Bool) : Work (Option Loan) :=
  call .getLoan none <| guarded "get_loan" do
    match ← query (·.loan? loanId) with
    | none => pure none
    | some row => do
      let k := (← session).known
      let l := if fresh then row else (k.loans.find? (·.loanId = loanId)).getD row
      know (remember l)
      pure (some l)

def require (loanId : String) (fresh : Bool) : Work Loan := do
  match ← get loanId fresh with
  | some l => pure l
  | none => throw (.failure (.loanNotFound loanId))

/-! ## Opening -/

def initial (loanId founderId : String) (d : Workflow.Definition) : Loan where
  loanId
  founderId
  state := d.initialState
  definitionName := d.name
  definitionVersion := d.version
  version := 1

/-- What is recorded when a loan is opened. -/
def openingRecord (founderId actor : String) (d : Workflow.Definition)
    (timestamp : Calendar.Timestamp) : AuditRecord where
  timestamp
  actor
  event := .loanOpened
  details := "Loan opened for founder " ++ founderId ++ " in state " ++ d.initialState ++ " (" ++
    d.label ++ ")"
  attributes := [
    (.text "founder_id", .text founderId),
    (.text "initial_state", .text d.initialState),
    (.text "definition", .text d.name),
    (.text "definition_version", .int d.version)]
  key := none

def add (l : Loan) : Work Unit := do
  change fun t =>
    if !Column.fitsInteger l.definitionVersion then .error .tooLarge
    else match t.addLoan? l with
      | some t => .ok t
      | none => .error (.storage .conflict)
  know (remember l)

def open_ (loanId founderId : String) (d : Workflow.Definition) (actor : String) : Work Loan := do
  if (← get loanId false).isSome then throw (.failure (.loanAlreadyExists loanId))
  let l := initial loanId founderId d
  savepoint (add l) (throw (.failure (.loanAlreadyExists loanId)))
  let _ ← AuditLog.append loanId (openingRecord founderId actor d (← now))
  emit .info "services.ledger" "loan_opened" [
    ("loan_id", .text loanId),
    ("founder_id", .text founderId),
    ("initial_state", .text d.initialState),
    ("definition", .text d.label)]
  pure l

/-! ## Moving -/

/-- Another writer changes the row of a loan. -/
def bump (loanId : String) : Work Unit := do
  setTables ((← session).tables.changeLoan loanId fun l => { l with version := l.version + 1 })

/-- Lets another writer change the row of a loan first, if there is one. -/
def giveWay (loanId : String) : Work Unit := do
  if ← isRivalled then bump loanId

/-- Writes a new state into the row of a loan, which must still have the version that the session
knows. Nothing is written when the state stays the same. -/
def write (l : Loan) (state : String) : Work Loan := do
  if state = l.state then pure l
  else
    let moved := { l with state, version := l.version + 1 }
    change fun t =>
      if (t.loan? l.loanId).any (·.version = l.version) then
        .ok (t.changeLoan l.loanId fun row => { row with state, version := moved.version })
      else .error (.storage .stale)
    know (remember moved)
    pure moved

/-- Tells that a row was changed by somebody else. -/
def conflicted {α : Type} (l : Loan) : Work α := do
  emit .warning "services.ledger" "loan_version_conflict"
    [("loan_id", .text l.loanId), ("expected_state", .text l.state)]
  throw (.failure (.optimisticLock l.loanId (some l.state) none))

def updateState (loanId state : String) (expected : Option String) : Work (Option Loan) := do
  giveWay loanId
  call .updateState none do
    let l ← require loanId false
    if expected.any (· ≠ l.state) then
      throw (.failure (.optimisticLock loanId expected (some l.state)))
    let moved ← guarded "update_state" <| (write l state).recover fun e => match e with
      | .storage .stale => conflicted l
      | e => throw e
    emit .debug "services.ledger" "loan_state_updated" [
      ("loan_id", .text loanId), ("from_state", .text l.state), ("to_state", .text state)]
    pure (some moved)

end LoanLedger.Ledger.Loans
