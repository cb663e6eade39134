import LoanLedger.Log.Context
import LoanLedger.Log.Item
import LoanLedger.Log.Level
import LoanLedger.Log.Pattern

/-!
# Log records

* `Record` : one thing that was noticed, with fields of its own and perhaps an error;
* `Record.ofFields?` : the record, unless a field has a reserved name;
* `Draft` : a record as it is given to be written, of any program, with any texts and any error;
* `Draft.payload d ts message bound` : the fields of the written record, the bound ones winning over the record's own
  fields; `Draft.line? d bound` : the written record, one line of JSON;
* `Record.format? r args c created` : the record of this program, its message with arguments, written;
  `Record.line? r c created` : so without arguments.
-/

namespace LoanLedger.Log

open Calendar (Timestamp Offset)
open Text (Points)

structure Record where
  level : Level
  /-- The part of the program that noticed it. -/
  source : String
  message : String
  fields : List (String × Value)
  cause : Option Report

namespace Record

def ownNames : List String := [
  "name", "msg", "args", "levelname", "levelno", "pathname", "filename", "module", "exc_info",
  "exc_text", "stack_info", "lineno", "funcName", "created", "msecs", "relativeCreated", "thread",
  "threadName", "processName", "process"]

def forbiddenNames : List String := "message" :: "asctime" :: ownNames

def reservedNames : List String := "taskName" :: forbiddenNames

def forbidden? (fields : List (String × Value)) : Option String :=
  (fields.map (·.1)).find? forbiddenNames.contains

def overwrites (name : String) : Report :=
  .plain "KeyError" (Text.quoted ("Attempt to overwrite " ++ Text.quoted name ++ " in LogRecord"))

def ofFields? (level : Level) (source message : String) (fields : List (String × Value)) :
    Except String Record :=
  match forbidden? fields with
  | some name => .error name
  | none => .ok ⟨level, source, message, fields, none⟩

/-! ## Fields -/

/-- Gives a field a value: a field that is there keeps its place. -/
def put (fields : Fields) (name : Points) (v : Item) : Fields :=
  match fields with
  | [] => [(name, v)]
  | f :: fs => if f.1 = name then (name, v) :: fs else f :: put fs name v

/-- Gives several fields values. -/
def putAll (fields news : Fields) : Fields :=
  news.foldl (fun fs n => put fs n.1 n.2) fields

def isReserved (name : Points) : Bool :=
  (reservedNames.map Points.ofString).contains name

/-- The record's own fields that are written beside others: no reserved name, and none that is there
already. -/
def freeFields (there fields : Fields) : Fields :=
  fields.filter fun f => !isReserved f.1 && !there.any (·.1 = f.1)

/-! ## Times -/

/-- Why a record is not written. -/
inductive Error where
  | json (e : Json.Error)
  | message (e : Pattern.Error)
  /-- The year of the time is beyond the calendar. -/
  | year (n : Int)
  | system
  /-- The number of seconds is too large for the system. -/
  | number

/-- The report of a record that is not written. -/
def Error.report : Error → Report
  | .json e => e.report
  | .message e => e.report
  | .year n => .plain "ValueError" ("year " ++ Numeral.ofInt n ++ " is out of range")
  | .system => .plain "OSError" "[Errno 75] Value too large for defined data type"
  | .number => .plain "OverflowError" "timestamp out of range for platform time_t"

/-- Seconds from the first instant of year 1 to that of 1970. -/
def epochSeconds : Int := 62135596800

def yearOfDay (n : Int) : Int :=
  let cycle := n.fdiv 146097
  let rest := n.fmod 146097
  cycle * 400 + (Calendar.Date.yearAndRest (rest.toNat + 1)).1

/-- The time that many seconds after the first instant of 1970. -/
def time? (created : Int) : Except Error Timestamp :=
  let seconds := created + epochSeconds
  if created < -(Nat.pow 2 63) || Nat.pow 2 63 ≤ created then .error .number
  else match Timestamp.ofLocalMicros? (seconds * 1000000) (some Offset.utc) with
    | some t => .ok t
    | none =>
      let year := yearOfDay (seconds.fdiv 86400)
      if year.natAbs < Nat.pow 2 31 then .error (.year year) else .error .system

end Record

/-! ## What is written -/

structure Cause where
  fields : Fields
  trace : Points

structure Draft where
  /-- Its time, unless the time has no text. -/
  ts : Except Record.Error Points
  level : Points
  logger : Points
  /-- Its message with the arguments, unless they do not fit. -/
  message : Except Record.Error Points
  fields : Fields
  cause : Option Cause

/-- The bound fields with values of any texts. -/
abbrev Bound := List (Field × Item)

def Context.bound (c : Context) : Bound := c.map fun p => (p.1, .plain p.2)

namespace Draft

open Record (freeFields put putAll)

def front (d : Draft) (ts message : Points) (bound : Bound) : Fields :=
  [(.ofString "ts", .text ts), (.ofString "level", .text d.level), (.ofString "logger", .text d.logger),
    (.ofString "message", .text message)] ++ bound.map fun b => (.ofString b.1.name, b.2)

/-- All fields but the trace of the error. -/
def body (d : Draft) (ts message : Points) (bound : Bound) : Fields :=
  let front := d.front ts message bound
  let plain := front ++ freeFields front d.fields
  match d.cause with
  | none => plain
  | some e => putAll plain e.fields

def payload (d : Draft) (ts message : Points) (bound : Bound) : Fields :=
  match d.cause with
  | none => d.body ts message bound
  | some e => put (d.body ts message bound) (.ofString "traceback") (.text e.trace)

def line? (d : Draft) (bound : Bound) : Except Record.Error String := do
  let ts ← d.ts
  let message ← d.message
  match fieldsJson? (d.payload ts message bound) with
  | .ok j => pure (Wire.render Json.spaced (j.map Points.units))
  | .error e => throw (.json e)

end Draft

namespace Record

/-- The last line that tells of an error: its full name, and its wording if there is any. -/
def causeLine (r : Report) : String :=
  let name := (if r.code.isSome then "lending_kernel.exceptions." else "") ++ r.name
  match r.message.getD "" with
  | "" => name
  | m => name ++ ": " ++ m

/-- The fields that tell of an error. -/
def causeFields (r : Report) : List (String × Value) :=
  [("exc_type", .text r.name)]
    ++ (r.message.elim [] fun m => [("exc_message", .text m)])
    ++ (r.code.elim [] fun c => [("exc_code", .text c)])
    ++ r.attributes.map (fun a => ("exc_" ++ a.1, a.2))

/-- The record as it is given to be written, its message with arguments. -/
def draft (r : Record) (args : List Value) (created : Int) : Draft where
  ts := (time? created).map fun t => .ofString t.iso
  level := .ofString r.level.name
  logger := .ofString ("lending_kernel." ++ r.source)
  message := (Pattern.fill? r.message args).mapError .message
  fields := .ofValues r.fields
  cause := r.cause.map fun e => ⟨.ofValues (causeFields e), .ofString (causeLine e)⟩

/-- The fields without time and trace of the error. -/
def body (r : Record) (c : Context) : Fields :=
  ((r.draft [] 0).body [] (.ofString r.message) c.bound).filter (·.1 ≠ .ofString "ts")

def format? (r : Record) (args : List Value) (c : Context) (created : Int) : Except Error String :=
  (r.draft args created).line? c.bound

def line? (r : Record) (c : Context) (created : Int) : Except Error String :=
  r.format? [] c created

end Record

end LoanLedger.Log
