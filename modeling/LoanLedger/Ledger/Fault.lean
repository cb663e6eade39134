import LoanLedger.Clock
import LoanLedger.Ledger.Row
import LoanLedger.Locks.Basic

/-!
# Errors and faults

* `Refusal` : why the storage refuses a statement;
* `Error` : why work on the ledger fails; `Error.report e` is what is told of it;
* `Error.isKernel e` : whether `e` is a failure of the ledger or the workflow themselves;
* `Error.kind? e` : the kind of such a failure.

Work on the ledger can be disturbed at certain points: a call fails there instead of being done, or
finds nothing as if it had come too early.

* `Point` : where work can be disturbed;
* `Fault` : what is to happen at a point, and how often it was passed;
* `judge p fs` : what becomes of a call at the point `p`, and the faults after it.
-/

namespace LoanLedger.Ledger

/-- Why the storage refuses a statement. -/
inductive Refusal where
  /-- A row with the same unique key is there. -/
  | conflict
  /-- Somebody else changed the row meanwhile. -/
  | stale
  /-- A value has no stored form. -/
  | unstorable
  | outage
  /-- An earlier statement of the transaction was refused. -/
  | abandoned
  | noRow
  deriving Repr, DecidableEq

def Refusal.name : Refusal → String
  | conflict => "IntegrityError"
  | stale => "StaleDataError"
  | unstorable => "StatementError"
  | outage => "OperationalError"
  | abandoned => "PendingRollbackError"
  | noRow => "NoResultFound"

/-- Why work on the ledger fails. -/
inductive Error where
  | failure (f : Failure)
  | storage (r : Refusal)
  /-- A whole number does not fit its column. -/
  | tooLarge
  | clock (e : Clock.Error)
  /-- A time leaves the calendar in UTC. -/
  | outOfCalendar
  /-- A time without an offset lies on the first day of the calendar. -/
  | firstDay
  | content (e : ContentError)
  | unknownWord (word family : String)
  | patience (e : PatienceError)
  /-- The lock is waited for by its holder. -/
  | stuck
  | external (e : External)

/-- What is told of a word that names nothing. -/
def unknownWordReport (word family : String) : Report :=
  .plain "ValueError" (Text.quoted word ++ " is not a valid " ++ family)

def ContentError.report : ContentError → Report
  | .unknownTag word => unknownWordReport word "AuditTag"
  | .attributes e => e.report
  | .json e => e.report

namespace Error

def report : Error → Report
  | failure f => f.report
  | storage r => .bare r.name
  | tooLarge => .plain "OverflowError" "Python int too large to convert to SQLite INTEGER"
  | clock e => e.report
  | outOfCalendar => .outOfCalendar
  | firstDay => .plain "ValueError" "year 0 is out of range"
  | content e => e.report
  | unknownWord word family => unknownWordReport word family
  | patience e => e.report
  | stuck => .plain "RuntimeError" "the lock is waited for by its holder"
  | external e => e.report

def kind? : Error → Option Failure.Kind
  | failure f => some f.kind
  | _ => none

def isKernel (e : Error) : Bool :=
  e.kind?.isSome

/-- Whether somebody else's transition was recorded under the same key before. -/
def isDuplicate (e : Error) : Bool :=
  e.kind? = some .duplicateTransition

end Error

/-- Where work can be disturbed. -/
inductive Point where
  | statement
  | commit
  | cancelCheck
  | getLoan
  | updateState
  | appendLog
  | findTransition
  | findDisbursement
  | createDisbursement
  | lockedCounter
  deriving Repr, DecidableEq

inductive Effect where
  | fail (call : Option Nat) (e : Error)
  /-- That many first calls find nothing. -/
  | miss (calls : Nat)

/-- What is to happen at a point that was passed so many times. -/
structure Fault where
  point : Point
  effect : Effect
  passed : Nat

inductive Verdict where
  | done
  | missed
  | failed (e : Error)

/-- What an effect makes of the call with a number. -/
def Effect.verdict (n : Nat) : Effect → Verdict
  | fail none e => .failed e
  | fail (some call) e => if n = call then .failed e else .done
  | miss calls => if n ≤ calls then .missed else .done

/-- The outermost fault at a point that does something to the call decides; those behind it do not
see the call. -/
def judge (p : Point) : List Fault → List Fault × Verdict
  | [] => ([], .done)
  | f :: fs =>
    if f.point = p then
      let n := f.passed + 1
      match f.effect.verdict n with
      | .done =>
        let (fs, v) := judge p fs
        ({ f with passed := n } :: fs, v)
      | v => ({ f with passed := n } :: fs, v)
    else
      let (fs, v) := judge p fs
      (f :: fs, v)

@[simp] theorem judge_nil (p : Point) : judge p [] = ([], .done) := rfl

end LoanLedger.Ledger
