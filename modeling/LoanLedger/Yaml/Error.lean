import LoanLedger.Report

/-!
# What can be wrong with a document

* `Yaml.Error` : the causes; `Yaml.Error.report` : their reports.

All faults of the notation, and all nodes without a meaning, are one cause whose wording is
withheld. A scalar that has a meaning by its form or tag, but names no value, tells more.
-/

namespace LoanLedger.Yaml

/-- Why a text is no document. -/
inductive Error where
  /-- The text breaks the rules of the notation, or a node has no meaning. -/
  | malformed
  /-- An escape names a character beyond the last one. -/
  | noCharacter (code : Nat)
  | noTruthValue (text : String)
  /-- The text writes no whole number to the base. -/
  | noInteger (base : Nat) (text : String)
  | integerTooLong (digits : Nat)
  | noFraction (text : String)
  /-- A number without a single character. -/
  | emptyNumber
  /-- A place of a number to the base sixty is worth more than any fraction. -/
  | placeTooLarge
  | noTime
  | timeOfMapping
  | time (e : Calendar.Error)
  /-- A collection contains itself. -/
  | endless
  deriving Repr, DecidableEq

/-- The report of a cause. -/
def Error.report : Error → Report
  | .malformed => .bare "YAMLError"
  | .noCharacter code =>
    if code < Nat.pow 2 31 then .plain "ValueError" "chr() arg not in range(0x110000)"
    else .plain "OverflowError" "Python int too large to convert to C int"
  | .noTruthValue text => .plain "KeyError" (Text.quoted text)
  | .noInteger base text =>
    .plain "ValueError" ("invalid literal for int() with base " ++ base.repr ++ ": " ++
      String.ofList ((Text.quoted text).toList.take 200))
  | .integerTooLong digits => .plain "ValueError" (tooLongToRead digits)
  | .noFraction text =>
    .plain "ValueError" ("could not convert string to float: " ++ Text.quoted text)
  | .emptyNumber => .plain "IndexError" "string index out of range"
  | .placeTooLarge => .plain "OverflowError" "int too large to convert to float"
  | .noTime => .plain "AttributeError" "'NoneType' object has no attribute 'groupdict'"
  | .timeOfMapping => .plain "TypeError" "expected string or bytes-like object, got 'list'"
  | .time e => e.report
  | .endless => .plain "RecursionError" "maximum recursion depth exceeded"

end LoanLedger.Yaml
