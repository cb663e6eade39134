import LoanLedger.Ledger.Session

/-!
# Databases

* `Database` : a ledger that is not open, open without tables, or open with its rows;
* `Database.create?`, `Database.drop?` : makes the tables, or drops them with all rows;
* `Database.scope db clock x` : work in a transaction of its own; without tables every statement
  fails;
* `Desk.of t clock` : a desk with some rows at which nothing has been done.
-/

namespace LoanLedger.Ledger

/-- A desk with some committed rows: nothing is locked, written, disturbed or cancelled, and audit
entries are guarded. -/
def Desk.of (t : Tables) (clock : Clock) : Desk where
  store := t
  session := .of t
  clock
  locks := .empty
  setup := .initial
  context := .empty
  log := []
  ids := ⟨[], 0⟩
  isGuarded := true
  faults := []
  hasRival := false
  checksLeft := none

inductive Database where
  | closed
  | bare
  | filled (t : Tables)

namespace Database

def notOpen : Report :=
  .plain "RuntimeError" "Engine not initialized. Call init_engine_from_url() first."

def isOpen : Database → Bool
  | closed => false
  | _ => true

def create? : Database → Option Database
  | closed => none
  | bare => some (filled .empty)
  | filled t => some (filled t)

def drop? : Database → Option Database
  | closed => none
  | _ => some bare

def outage : Fault :=
  ⟨.statement, .fail none (.storage .outage), 0⟩

/-- Work in a transaction of its own. -/
def scope {α : Type} (db : Database) (clock : Clock) (x : Work α) : Database × Except Report α :=
  match db with
  | closed => (closed, .error notOpen)
  | bare =>
    match Ledger.scope x { Desk.of .empty clock with faults := [outage] } with
    | .ok a _ => (bare, .ok a)
    | .error e _ => (bare, .error e.report)
  | filled t =>
    match Ledger.scope x (Desk.of t clock) with
    | .ok a d => (filled d.store, .ok a)
    | .error e d => (filled d.store, .error e.report)

end Database

end LoanLedger.Ledger
