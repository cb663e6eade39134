import LoanLedger.Ledger.Desk

/-!
# Transactions

* `session`, `resume` : the session at work, and another one in its place;
* `statement`, `query`, `change` : statements of the session at work: a change that is refused breaks
  the session, and a broken session refuses every statement;
* `savepoint x onConflict` : work whose changes are taken back when a unique key was taken;
* `begin`, `rollback`, `commit` : a session from the committed rows; its changes become the committed
  rows at its commit and not before;
* `scope x` : work in a transaction of its own: committed when it succeeds, taken back when it fails.
-/

namespace LoanLedger.Ledger

variable {α : Type}

/-! ## The session -/

def session : Work Session := do
  pure (← get).session

def resume (s : Session) : Work Unit :=
  modify fun d => { d with session := s }

def setTables (t : Tables) : Work Unit :=
  modify fun d => { d with session := { d.session with tables := t } }

/-- The session with more or less that it knows. -/
def know (f : Known → Known) : Work Unit :=
  modify fun d => { d with session := { d.session with known := f d.session.known } }

/-- Only taking back is possible from here on. -/
def breakSession : Work Unit :=
  modify fun d => { d with session := { d.session with isBroken := true } }

/-! ## Statements -/

/-- Sends a statement: it may fail, and a broken session refuses it. -/
def statement : Work Unit := do
  if (← session).isBroken then throw (.storage .abandoned)
  call .statement () (pure ())

def query (f : Tables → α) : Work α := do
  statement
  pure (f (← session).tables)

/-- Changes the rows of the session, which breaks when the change is refused. -/
def change (f : Tables → Except Error Tables) : Work Unit :=
  Work.recover
    (do
      statement
      let t ← Work.ofExcept (f (← session).tables)
      setTables t)
    fun e => do
      breakSession
      throw e

/-- Adds a row, unless its unique key is taken. -/
def insert (f : Tables → Option Tables) : Work Unit :=
  change fun t => match f t with
    | some t => .ok t
    | none => .error (.storage .conflict)

/-- Work whose changes are taken back when a unique key was taken, with other work in its place. -/
def savepoint (x onConflict : Work α) : Work α := do
  statement
  let before ← session
  Work.recover
    (do
      let a ← x
      statement
      pure a)
    fun e => match e with
      | .storage .conflict => do
        resume before
        onConflict
      | e => throw e

/-! ## Transactions -/

def begin : Work Unit :=
  modify fun d => { d with session := .of d.store }

def rollback : Work Unit := begin

def commit : Work Unit :=
  call .commit () do
    if (← session).isBroken then throw (.storage .abandoned)
    modify fun d => { d with store := d.session.tables }

/-- Ends a transaction as its work went: committed, or taken back. -/
def finish (r : Except Error α) : Work α :=
  Work.recover
    (do
      let a ← Work.ofExcept r
      commit
      emit .debug "db.engine" "transaction_committed" []
      pure a)
    fun e => do
      rollback
      note ⟨.warning, "db.engine", "transaction_rolled_back", [], some e.report⟩
      throw e

def start : Work Unit := do
  begin
  emit .debug "db.engine" "transaction_started" []

def scope (x : Work α) : Work α := do
  start
  finish (← Work.attempt x)

end LoanLedger.Ledger
