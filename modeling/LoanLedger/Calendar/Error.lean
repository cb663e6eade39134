import LoanLedger.Numeral.Basic
import LoanLedger.Text.Quoted

/-!
# What can be wrong with a date or a time

* `Error` : the causes; `Error.message` : their wording;
* `spanText n` : a span of `n` microseconds in days, seconds and microseconds, without zeros.
-/

namespace LoanLedger.Calendar

/-- Why a text or a computation names no time. -/
inductive Error where
  | malformed (text : String)
  | yearOutOfRange (year : Nat)
  | monthOutOfRange
  | dayOutOfRange
  | hourOutOfRange
  | minuteOutOfRange
  | secondOutOfRange
  | offsetOutOfRange (micros : Int)
  deriving Repr, DecidableEq

/-- The parts of a span that are not zero, the days rounded down. -/
def spanText (micros : Int) : String :=
  let days := micros.fdiv 86400000000
  let rest := micros.fmod 86400000000
  let parts := [("days", days), ("seconds", rest / 1000000), ("microseconds", rest % 1000000)]
  let shown := (parts.filter (·.2 ≠ 0)).map fun p => p.1 ++ "=" ++ Numeral.ofInt p.2
  "datetime.timedelta(" ++ (if shown.isEmpty then "0" else ", ".intercalate shown) ++ ")"

/-- The wording of a cause. -/
def Error.message : Error → String
  | .malformed text => "Invalid isoformat string: " ++ Text.quoted text
  | .yearOutOfRange year => "year " ++ year.repr ++ " is out of range"
  | .monthOutOfRange => "month must be in 1..12"
  | .dayOutOfRange => "day is out of range for month"
  | .hourOutOfRange => "hour must be in 0..23"
  | .minuteOutOfRange => "minute must be in 0..59"
  | .secondOutOfRange => "second must be in 0..59"
  | .offsetOutOfRange micros =>
    "offset must be a timedelta strictly between -timedelta(hours=24) and timedelta(hours=24), not "
      ++ spanText micros ++ "."

end LoanLedger.Calendar
