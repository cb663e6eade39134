/-!
# Levels of log records

* `Log.Level` : the five levels; `Level.severity` their ranks;
* `Log.severity? name` : the rank that a name stands for, in a configuration.
-/

namespace LoanLedger.Log

inductive Level where
  | debug
  | info
  | warning
  | error
  | critical
  deriving Repr, DecidableEq

namespace Level

def severity : Level → Int
  | debug => 10
  | info => 20
  | warning => 30
  | error => 40
  | critical => 50

def name : Level → String
  | debug => "DEBUG"
  | info => "INFO"
  | warning => "WARNING"
  | error => "ERROR"
  | critical => "CRITICAL"

end Level

def namedLevels : List (String × Level) := [
  ("CRITICAL", .critical), ("FATAL", .critical), ("ERROR", .error), ("WARN", .warning),
  ("WARNING", .warning), ("INFO", .info), ("DEBUG", .debug)]

/-- The rank that lets the surroundings decide. -/
def unset : Int := 0

def severity? (name : String) : Option Int :=
  if name = "NOTSET" then some unset else (namedLevels.lookup name).map Level.severity

end LoanLedger.Log
