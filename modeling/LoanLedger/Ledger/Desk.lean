import LoanLedger.Event.Basic
import LoanLedger.Ledger.Fault
import LoanLedger.Ledger.Tables
import LoanLedger.Log.Setup

/-!
# The desk

All that work on the ledger reads and changes.

* `Session` : the rows as a transaction has them, what it knows of them itself, and whether a
  statement was refused so that it can only be taken back;
* `Desk` : the committed rows, the session at work, clock, locks, log and what disturbs the work;
* `Work α` : work at the desk that gives an `α` or fails; what it did to the desk stays in any case;
* `attempt`, `recover`, `guarded` : work whose failures are dealt with;
* `emit`, `withContext` : the log; `call` : a call that can be disturbed.
-/

namespace LoanLedger.Ledger

open Calendar (Timestamp)

/-- Rows as a session got or made them, which it does not read again. -/
structure Known where
  loans : List Loan
  entries : List Entry
  disbursements : List Disbursement

structure Session where
  tables : Tables
  known : Known
  /-- Whether a statement was refused: nothing but taking back is possible. -/
  isBroken : Bool

def Session.of (t : Tables) : Session :=
  ⟨t, ⟨[], [], []⟩, false⟩

/-- Where the ids of new disbursements come from: names to be used first, and how many ids were
given. -/
structure IdSupply where
  names : List String
  used : Nat

/-- The next id: a name that is left, or a number. -/
def IdSupply.next (s : IdSupply) : String × IdSupply :=
  ((s.names[s.used]?).getD ("disb-" ++ (s.used + 1).repr), { s with used := s.used + 1 })

/-- A record as it was written, with the context of that moment. -/
structure Noted where
  record : Log.Record
  context : Log.Context

/-- All that work reads and changes. -/
structure Desk where
  store : Tables
  session : Session
  clock : Clock
  locks : Locks
  setup : Log.Setup
  context : Log.Context
  log : List Noted
  ids : IdSupply
  /-- Whether audit entries are guarded against changes within a session. -/
  isGuarded : Bool
  faults : List Fault
  /-- Whether another writer changes a loan right before its state is written. -/
  hasRival : Bool
  /-- How many checks pass before the work counts as cancelled. -/
  checksLeft : Option Nat

/-- Work at the desk. -/
abbrev Work := EStateM Error Desk

namespace Work

variable {α : Type}

def desk (x : Work α) (d : Desk) : Desk :=
  match x d with
  | .ok _ d => d
  | .error _ d => d

def answer (x : Work α) (d : Desk) : Except Error α :=
  match x d with
  | .ok a _ => .ok a
  | .error e _ => .error e

def recover (x : Work α) (handler : Error → Work α) : Work α := fun d =>
  match x d with
  | .ok a d => .ok a d
  | .error e d => handler e d

def attempt (x : Work α) : Work (Except Error α) := fun d =>
  match x d with
  | .ok a d => .ok (.ok a) d
  | .error e d => .ok (.error e) d

def ofExcept (r : Except Error α) : Work α :=
  match r with
  | .ok a => pure a
  | .error e => throw e

/-- Work that is followed by something in any case. -/
def finally_ (x : Work α) (last : Work Unit) : Work α := do
  let r ← attempt x
  last
  ofExcept r

end Work

/-! ## Log -/

/-- Writes a record, if its level passes. -/
def note (r : Log.Record) : Work Unit :=
  modify fun d => if d.setup.passes r.level then { d with log := d.log ++ [⟨r, d.context⟩] } else d

def emit (level : Log.Level) (source message : String) (fields : List (String × Value)) :
    Work Unit :=
  note ⟨level, source, message, fields, none⟩

def withContext {α : Type} (fields : List (String × Value)) (x : Work α) : Work α := do
  let before := (← get).context
  modify fun d => { d with context := d.context.merge fields }
  Work.finally_ x (modify fun d => { d with context := before })

/-! ## Faults -/

def pass (p : Point) : Work Verdict :=
  modifyGet fun d => ((judge p d.faults).2, { d with faults := (judge p d.faults).1 })

/-- A call that may fail instead or give what is given when nothing is found. -/
def call {α : Type} (p : Point) (missed : α) (x : Work α) : Work α := do
  match ← pass p with
  | .done => x
  | .missed => pure missed
  | .failed e => throw e

/-- Work in which a refusal of the storage becomes a failure of the ledger. -/
def guarded {α : Type} (operation : String) (x : Work α) : Work α :=
  x.recover fun e => do
    match e with
    | .storage r => do
      emit .error "services.ledger" "ledger_unavailable"
        [("operation", .text operation), ("error_type", .text r.name)]
      throw (.failure (.ledgerUnavailable operation))
    | e => throw e

/-! ## What the desk shows -/

def isRivalled : Work Bool := do
  pure (← get).hasRival

def isGuarded : Work Bool := do
  pure (← get).isGuarded

/-! ## Clock, checks and ids -/

/-- The time that the clock shows. -/
def now : Work Timestamp := do
  Work.ofExcept ((← get).clock.now?.mapError .clock)

/-- A time in UTC; one without an offset counts as UTC, but not on the first day of the calendar. -/
def utc (t : Timestamp) : Work Timestamp :=
  if t.offset.isNone && t.localMicros < Calendar.microsPerDay then throw .firstDay
  else match t.toUtc? with
    | some t => pure t
    | none => throw .outOfCalendar

/-- Whether the work counts as not yet cancelled; a check is used up. -/
def checkPasses : Work Bool :=
  modifyGet fun d => match d.checksLeft with
    | none => (true, d)
    | some 0 => (false, d)
    | some (n + 1) => (true, { d with checksLeft := some n })

def freshId : Work String :=
  modifyGet fun d => (d.ids.next.1, { d with ids := d.ids.next.2 })

end LoanLedger.Ledger
