import LoanLedger.Report

/-!
# Clocks

* `Clock` : a clock that moves only when it is told to;
* `Clock.now? c` : the time it shows; `Clock.nowUtc? c` : the same in UTC;
* `Clock.startAt t`, `Clock.advance c n` : a clock set to a time, and one told to move.
-/

namespace LoanLedger

open Calendar (Date TimeOfDay Offset Timestamp)

/-- A clock: the time at which it was set, and the seconds it was told to move since. -/
structure Clock where
  start : Timestamp
  seconds : Int

namespace Clock

/-- Why a clock shows no time. -/
inductive Error where
  | outOfCalendar
  /-- The clock moved by more days than are ever counted. -/
  | spanTooLong (days : Int)
  /-- The clock moved by more days than have a number. -/
  | numberTooLarge
  deriving Repr, DecidableEq

def maxDays : Nat := 999999999

/-- Whether a number fits a signed word of 32 bits. -/
def isSmall (n : Int) : Bool :=
  -(Nat.pow 2 31) ≤ n && n < Nat.pow 2 31

def now? (c : Clock) : Except Error Timestamp :=
  let days := c.seconds.fdiv 86400
  if maxDays < days.natAbs then
    .error (if isSmall days then .spanTooLong days else .numberTooLarge)
  else match c.start.addMicros? (c.seconds * 1000000) with
    | some t => .ok t
    | none => .error .outOfCalendar

def nowUtc? (c : Clock) : Except Error Timestamp := do
  match (← c.now?).toUtc? with
  | some t => pure t
  | none => throw .outOfCalendar

def advance (c : Clock) (n : Int) : Clock :=
  { c with seconds := c.seconds + n }

def startAt (t : Timestamp) : Clock :=
  ⟨t, 0⟩

/-- Noon of the first day of 2024. -/
def defaultStart : Timestamp :=
  ⟨⟨2024, 1, 1, by decide⟩, ⟨12, 0, 0, 0, by decide⟩, some Offset.utc⟩

/-- The report of a clock that shows no time. -/
def Error.report : Error → Report
  | .outOfCalendar => .outOfCalendar
  | .spanTooLong days =>
    .plain "OverflowError"
      ("days=" ++ Numeral.ofInt days ++ "; must have magnitude <= " ++ maxDays.repr)
  | .numberTooLarge => .plain "OverflowError" "Python int too large to convert to C int"

end Clock

end LoanLedger
