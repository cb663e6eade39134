import LoanLedger.Calendar.Error
import LoanLedger.Failure.Given
import LoanLedger.Json.OfValue

/-!
# Reports of what went wrong

* `Report` : the name and the wording of an error, and what else callers and logs learn of it;
* `External` : an error of the surroundings, with a name of its own;
* `report` functions: the reports of failures and of errors in numbers, dates and JSON.
-/

namespace LoanLedger

structure Report where
  name : String
  message : Option String
  /-- The code, for failures of the ledger and the workflow. -/
  code : Option String
  attributes : List (String × Value)

namespace Report

/-- The report of an error that has a name and a wording alone. -/
def plain (name message : String) : Report :=
  ⟨name, some message, none, []⟩

def bare (name : String) : Report :=
  ⟨name, none, none, []⟩

end Report

def Failure.report (f : Failure) : Report :=
  ⟨f.kind.name, f.message?, some f.kind.code, f.attributes⟩

def ArgumentError.report (e : ArgumentError) : Report :=
  .plain "TypeError" e.message

def Failure.GivenError.report (e : GivenError) : Report :=
  .plain "TypeError" e.message

def PairError.report (e : PairError) : Report :=
  match e with
  | .notPair .. => .plain "ValueError" e.message
  | _ => .plain "TypeError" e.message

/-- The wording for a number that is too long to be written. -/
def tooLongToWrite : String :=
  "Exceeds the limit (4300 digits) for integer string conversion; " ++
    "use sys.set_int_max_str_digits() to increase the limit"

/-- The wording for a text with too many digits. -/
def tooLongToRead (digits : Nat) : String :=
  "Exceeds the limit (4300 digits) for integer string conversion: value has " ++ digits.repr ++
    " digits; use sys.set_int_max_str_digits() to increase the limit"

def Numeral.Error.report : Numeral.Error → Report
  | .textTooLong digits => .plain "ValueError" (tooLongToRead digits)
  | .numberTooLong => .plain "ValueError" tooLongToWrite
  | .malformed => .plain "ValueError" "invalid literal"

def Calendar.Error.report (e : Calendar.Error) : Report :=
  .plain "ValueError" e.message

def Report.outOfCalendar : Report :=
  .plain "OverflowError" "date value out of range"

def Decimal.Error.report : Decimal.Error → Report
  | .invalidOperation => .plain "InvalidOperation" "[<class 'decimal.InvalidOperation'>]"
  | .overflow => .plain "Overflow" "[<class 'decimal.Overflow'>]"

def Clash.report (c : Clash) : Report :=
  match c with
  | .notANumber => .plain "InvalidOperation" c.message
  | _ => .plain "TypeError" c.message

def Json.Error.report : Json.Error → Report
  | .numberTooLong => .plain "ValueError" tooLongToWrite
  | .key sort =>
    .plain "TypeError" ("keys must be str, int, float, bool or None, not " ++ sort)
  | .clash c => c.report
  | .noForm sort => .plain "TypeError" ("Object of type " ++ sort ++ " is not JSON serializable")
  | .decimal e => e.report

/-! ## The surroundings -/

structure External where
  name : String
  message : String
  isSystem : Bool
  deriving Repr, DecidableEq

namespace External

/-- The names of errors that the operating system reports. -/
def systemNames : List String := [
  "OSError", "IOError", "EnvironmentError", "ConnectionError", "BrokenPipeError",
  "ConnectionAbortedError", "ConnectionRefusedError", "ConnectionResetError", "BlockingIOError",
  "ChildProcessError", "FileExistsError", "FileNotFoundError", "InterruptedError",
  "IsADirectoryError", "NotADirectoryError", "PermissionError", "ProcessLookupError",
  "TimeoutError"]

/-- The names that numbers of the operating system have. -/
def numberedNames : List (Int × String) := [
  (1, "PermissionError"), (2, "FileNotFoundError"), (3, "ProcessLookupError"),
  (4, "InterruptedError"), (10, "ChildProcessError"), (11, "BlockingIOError"),
  (13, "PermissionError"), (17, "FileExistsError"), (20, "NotADirectoryError"),
  (21, "IsADirectoryError"), (32, "BrokenPipeError"), (103, "ConnectionAbortedError"),
  (104, "ConnectionResetError"), (108, "BrokenPipeError"), (110, "TimeoutError"),
  (111, "ConnectionRefusedError"), (114, "BlockingIOError"), (115, "BlockingIOError")]

/-- The name of a system error: a number may tell more than the general name. -/
def systemName (name : String) (args : List Value) : String :=
  if name = "OSError" || name = "IOError" || name = "EnvironmentError" then
    match args with
    | .int n :: _ :: _ => (numberedNames.lookup n).getD "OSError"
    | _ => "OSError"
  else name

/-- The wording of a system error: a number, a text, and perhaps a file. -/
def systemMessage : List Value → String
  | [n, s] => "[Errno " ++ n.label ++ "] " ++ s.label
  | n :: s :: file :: _ => "[Errno " ++ n.label ++ "] " ++ s.label ++ ": " ++ file.quoted
  | vs => Failure.plainMessage vs

/-- The error of a name with what is told of it. A lone key is quoted. -/
def ofArguments (name : String) (args : List Value) : External :=
  if systemNames.contains name then ⟨systemName name args, systemMessage args, true⟩
  else if name = "KeyError" then
    match args with
    | [v] => ⟨name, v.quoted, false⟩
    | vs => ⟨name, Failure.plainMessage vs, false⟩
  else ⟨name, Failure.plainMessage args, false⟩

def report (e : External) : Report :=
  .plain e.name e.message

end External

end LoanLedger
