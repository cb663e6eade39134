import LoanLedger.Report

/-!
# Locks of loans

One lock a loan, kept only while somebody holds it or waits for it.

* `Patience.ofValue? v` : what a number of seconds means: null and -1 wait forever, any other number
  gives up after that time, and a negative one is refused;
* `Locks` : the table; an entry counts those who checked it out and knows whether its lock is taken;
* `checkout`, `acquire`, `release`, `checkin` : the steps of those who want a lock;
* `Locks.hold t id timeout` : the table after an attempt to hold a lock, and how it went;
* `Locks.leave t id` : the table after a holder has left.

Seconds are counted in whole nanoseconds, away from zero.
-/

namespace LoanLedger

inductive Patience where
  | forever
  /-- Until some time has passed. -/
  | limited
  deriving Repr, DecidableEq

/-- Why a waiting time is refused. -/
inductive PatienceError where
  | negative
  | notANumber
  | tooLarge
  | notSeconds (sort : String)
  deriving Repr, DecidableEq

/-- The report of a waiting time that is refused. -/
def PatienceError.report : PatienceError → Report
  | .negative => .plain "ValueError" "timeout value must be positive"
  | .notANumber => .plain "ValueError" "Invalid value NaN (not a number)"
  | .tooLarge => .plain "OverflowError" "timestamp too large to convert to C _PyTime_t"
  | .notSeconds sort =>
    .plain "TypeError" ("'" ++ sort ++ "' object cannot be interpreted as an integer")

namespace Patience

/-- What a number of nanoseconds means. -/
def ofNanos? (n : Int) : Except PatienceError Patience :=
  if n < -(Nat.pow 2 63) || Nat.pow 2 63 ≤ n then .error .tooLarge
  else if n = -1000000000 then .ok .forever
  else if n < 0 then .error .negative
  else .ok .limited

/-- The whole number next to a fraction, away from zero. -/
def awayFromZero (num : Int) (den : Nat) : Int :=
  if num < 0 then num.fdiv den else -((-num).fdiv den)

/-- What a number of seconds means. -/
def ofValue? : Value → Except PatienceError Patience
  | .null => .ok .forever
  | .bool b => ofNanos? (if b then 1000000000 else 0)
  | .int n => ofNanos? (n * 1000000000)
  | .float .nan => .error .notANumber
  | .float x => match x.toRatio? with
    | some (num, den) => ofNanos? (awayFromZero (num * 1000000000) den)
    | none => .error .tooLarge
  | v => .error (.notSeconds v.fullSort)

end Patience

/-- What the table knows of one loan. -/
structure LockEntry where
  /-- How many hold the lock or wait for it. -/
  refs : Nat
  isTaken : Bool
  isUsed : 0 < refs
  deriving Repr, DecidableEq

/-- The locks in use. -/
abbrev Locks := List (String × LockEntry)

namespace Locks

def empty : Locks := []

def entry? (t : Locks) (id : String) : Option LockEntry :=
  t.lookup id

/-- Changes the entry of a loan; without a new entry the old one goes. -/
def update (t : Locks) (id : String) (e : Option LockEntry) : Locks :=
  match t, e with
  | [], none => []
  | [], some e => [(id, e)]
  | p :: t, e => if p.1 = id then (match e with | some e => (id, e) :: t | none => t)
    else p :: update t id e

def checkout (t : Locks) (id : String) : Locks :=
  match t.entry? id with
  | none => t.update id (some ⟨1, false, Nat.one_pos⟩)
  | some e => t.update id (some ⟨e.refs + 1, e.isTaken, Nat.succ_pos _⟩)

/-- One holder or waiter less; the last one takes the entry along. -/
def checkin (t : Locks) (id : String) : Locks :=
  match t.entry? id with
  | none => t
  | some e =>
    t.update id (if h : 1 < e.refs then some ⟨e.refs - 1, e.isTaken, Nat.sub_pos_of_lt h⟩ else none)

def isHeld (t : Locks) (id : String) : Bool :=
  (t.entry? id).any (·.isTaken)

/-- Whether the table has an entry for a loan. -/
def contains (t : Locks) (id : String) : Bool :=
  (t.entry? id).isSome

def acquire (t : Locks) (id : String) : Locks :=
  match t.entry? id with
  | none => t
  | some e => t.update id (some { e with isTaken := true })

def release (t : Locks) (id : String) : Locks :=
  match t.entry? id with
  | none => t
  | some e => t.update id (some { e with isTaken := false })

/-- Why a lock is not held. -/
inductive Error where
  /-- The time passed while somebody else held the lock. -/
  | timedOut
  /-- The lock is taken by the one who waits for it without end. -/
  | stuck
  | patience (e : PatienceError)
  deriving Repr, DecidableEq

/-- Tries to hold the lock of a loan. Who holds it does not let go meanwhile, so that a wait with an
end is in vain. An attempt that fails leaves no trace. -/
def hold (t : Locks) (id : String) (timeout : Value) : Locks × Except Error Unit :=
  let out := t.checkout id
  match Patience.ofValue? timeout with
  | .error e => (out.checkin id, .error (.patience e))
  | .ok patience =>
    if out.isHeld id then
      (out.checkin id, .error (match patience with | .forever => .stuck | .limited => .timedOut))
    else (out.acquire id, .ok ())

def leave (t : Locks) (id : String) : Locks :=
  (t.release id).checkin id

def Error.report (id : String) (timeout : Value) : Error → Report
  | .timedOut => (Failure.lockTimeout id timeout).report
  | .stuck => .plain "RuntimeError" "the lock is waited for by its holder"
  | .patience e => e.report

end Locks

end LoanLedger
