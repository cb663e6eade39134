import LoanLedger.Log.Record
import LoanLedger.Text.Upper

/-!
# Setting the log up

* `Setup` : whether the log was set up, which records pass, and where they go;
* `Setup.configure s handler level` : the setup after a call that sets it up: only the first call
  counts, also when it fails;
* `Setup.reset s` : the setup after a call that takes this back;
* `Setup.passes s level` : whether records of a level are written.
-/

namespace LoanLedger.Log

structure Setup where
  isConfigured : Bool
  threshold : Int
  handlers : List String
  /-- Whether records go to the surroundings as well. -/
  propagates : Bool
  deriving Repr, DecidableEq

namespace Setup

def initial : Setup := ⟨false, unset, [], true⟩

def handler (s : Setup) : Option String :=
  s.handlers.head?

/-- Sends records to one more handler, unless they go there already. -/
def addHandler (s : Setup) (handler : String) : Setup :=
  if handler ∈ s.handlers then s else { s with handlers := s.handlers ++ [handler] }

/-- A level as a configuration may give it. -/
inductive Choice where
  | severity (n : Int)
  | name (s : String)
  | invalid (v : Value)

/-- Why a level is refused. -/
inductive Error where
  | unknownName (s : String)
  | invalid (v : Value)
  /-- There is a whole number in the level that is too long to be written. -/
  | numberTooLong

def Error.report : Error → Report
  | .unknownName s => .plain "ValueError" ("Unknown level: " ++ Text.quoted s)
  | .invalid v =>
    .plain "TypeError" ("Level not an integer or a valid string: " ++ v.quoted)
  | .numberTooLong => .plain "ValueError" tooLongToWrite

/-- The level that a value chooses. -/
def Choice.ofValue : Value → Choice
  | .int n => .severity n
  | .bool b => .severity (if b then 1 else 0)
  | v => match v.text? with
    | some s => .name s
    | none => .invalid v

/-- The rank of a chosen level; names count in any case. -/
def Choice.severity? : Choice → Except Error Int
  | .severity n => .ok n
  | .name s => match Log.severity? (Text.upper s) with
    | some n => .ok n
    | none => .error (.unknownName (Text.upper s))
  | .invalid v => .error (if v.isWritable then .invalid v else .numberTooLong)

/-- Sets the log up, unless that was done or tried before. The setup counts as tried even when the
level is refused. -/
def configure (s : Setup) (handler : String) (level : Choice) : Setup × Except Error Unit :=
  if s.isConfigured then (s, .ok ())
  else
    let tried := { s with isConfigured := true }
    match level.severity? with
    | .error e => (tried, .error e)
    | .ok n => ({ tried with threshold := n, propagates := false }.addHandler handler, .ok ())

/-- Takes the setup back; only warnings and worse pass. -/
def reset (s : Setup) : Setup :=
  { s with isConfigured := false, threshold := Level.warning.severity, handlers := [] }

/-- The rank that counts: an unset one leaves it at warnings. -/
def effective (s : Setup) : Int :=
  if s.threshold = unset then Level.warning.severity else s.threshold

def passes (s : Setup) (level : Level) : Bool :=
  s.effective ≤ level.severity

end Setup

end LoanLedger.Log
