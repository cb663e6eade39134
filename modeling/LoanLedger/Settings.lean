import LoanLedger.Log.Level
import LoanLedger.Path
import LoanLedger.Report
import LoanLedger.Text.Upper

/-!
# Settings

* `Settings.ofEnvironment? env` : the settings that named variables give, where they have any;
* `Settings.waiting s` : the timeout of `s`, as those take it who wait for locks.
-/

namespace LoanLedger

structure Settings where
  databaseUrl : String
  /-- The file of the process definition; nothing stands for the bundled one. -/
  definitionPath : Option String
  logLevel : String
  /-- Seconds to wait for the lock of a loan; nothing waits forever. -/
  lockTimeout : Option Binary64

namespace Settings

/-- Where the ledger is kept when nothing is said. -/
def defaultDatabaseUrl : String := "sqlite:///lending_workflow.db"

def default : Settings := ⟨defaultDatabaseUrl, none, "INFO", none⟩

/-- Why variables give no settings. -/
inductive Error where
  | unknownLevel (name : String)
  | timeoutNotNumber (text : String)
  | timeoutNegative (text : String)
  deriving Repr, DecidableEq

/-- The report of variables that give no settings. -/
def Error.report : Error → Report
  | .unknownLevel name => .plain "ValueError" ("Unknown LENDING_LOG_LEVEL: " ++ Text.quoted name)
  | .timeoutNotNumber s =>
    .plain "ValueError" ("could not convert string to float: " ++ Text.quoted s)
  | .timeoutNegative s =>
    .plain "ValueError" ("LENDING_LOCK_TIMEOUT_SECONDS must be >= 0, got " ++ Text.quoted s)

/-- The text of a variable without blanks at its ends; one that is not set is empty. -/
def lookup (env : List (String × String)) (name : String) : String :=
  Text.trim ((env.lookup name).getD "")

/-- The timeout that a text gives; an empty one gives none. -/
def timeout? (s : String) : Except Error (Option Binary64) :=
  if s = "" then .ok none
  else match Binary64.read? s with
    | none => .error (.timeoutNotNumber s)
    | some x => if x.isNegative then .error (.timeoutNegative s) else .ok (some x)

/-- The settings that variables give. -/
def ofEnvironment? (env : List (String × String)) : Except Error Settings := do
  let level := Text.upper (Text.trim ((env.lookup "LENDING_LOG_LEVEL").getD "INFO"))
  if (Log.severity? level).isNone then throw (.unknownLevel level)
  let timeout ← timeout? (lookup env "LENDING_LOCK_TIMEOUT_SECONDS")
  let path := lookup env "LENDING_PROCESS_DEFINITION"
  let url := lookup env "LENDING_DATABASE_URL"
  pure {
    databaseUrl := if url = "" then defaultDatabaseUrl else url
    definitionPath := if path = "" then none else some (Path.normal path)
    logLevel := level
    lockTimeout := timeout }

/-- The timeout as those take it who wait for locks: null waits forever. -/
def waiting (s : Settings) : Value :=
  s.lockTimeout.elim .null .float

end Settings

end LoanLedger
