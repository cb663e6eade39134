import LoanLedger.Report

/-!
# Columns of the ledger

* `Column.bindTime?`, `Column.readTimeValue?` : times are kept in UTC; one without an offset is not taken
  in, and taken as UTC on the way out;
* `Column.keepTime?` : a time as it reads back;
* `Column.bindUuid`, `Column.readUuidValue?` : identifiers are kept as text;
* `Column.fitsInteger n` : whether a whole number can be kept.
-/

namespace LoanLedger.Column

open Calendar (Timestamp)

/-- Why a value does not pass a column. -/
inductive Error where
  | naive (t : Timestamp)
  | outOfCalendar
  | uuid (e : Uuid.Error)
  /-- A value of this sort lacks what the column asks of it. -/
  | lacks (sort what : String)

/-- The report of a text that names no identifier. -/
def uuidReport : Uuid.Error → Report
  | .length => .plain "ValueError" "badly formed hexadecimal UUID string"
  | .digits s => .plain "ValueError" ("invalid literal for int() with base 16: " ++ Text.quoted s)
  | .range => .plain "ValueError" "int is out of range (need a 128-bit value)"

def Error.report : Error → Report
  | .naive t => .plain "ValueError" ("Naive datetime not allowed: " ++ Value.timeText t)
  | .outOfCalendar => .outOfCalendar
  | .uuid e => uuidReport e
  | .lacks sort what =>
    .plain "AttributeError" ("'" ++ sort ++ "' object has no attribute '" ++ what ++ "'")

def utc? (t : Timestamp) : Except Error Timestamp :=
  match t.toUtc? with
  | some t => .ok t
  | none => .error .outOfCalendar

def bindTime? (t : Timestamp) : Except Error Timestamp :=
  if t.isAware then utc? t else .error (.naive t)

/-- A time as it reads back: it goes in as UTC, is kept without its offset, and is taken as UTC on the
way out. -/
def keepTime? (t : Timestamp) : Except Error Timestamp := do
  utc? { (← bindTime? t) with offset := none }

/-- A value on its way into a column of times. -/
def bindTimeValue? : Value → Except Error (Option Timestamp)
  | .null => .ok none
  | .time t => (bindTime? t).map some
  | v => .error (.lacks v.fullSort "tzinfo")

def readTimeValue? : Value → Except Error (Option Timestamp)
  | .null => .ok none
  | .time t => (utc? t).map some
  | v => .error (.lacks v.fullSort "tzinfo")

def bindUuid : Value → Option String
  | .null => none
  | v => some v.label

def readUuidValue? : Value → Except Error (Option Uuid)
  | .null => .ok none
  | v => match v.text? with
    | some s => match Uuid.read? s with
      | .ok u => .ok (some u)
      | .error e => .error (.uuid e)
    | none => .error (.lacks v.fullSort "replace")

/-- Whether a whole number can be kept: a signed word of 64 bits. -/
def fitsInteger (n : Int) : Bool :=
  -(Nat.pow 2 63) ≤ n && n < Nat.pow 2 63

end LoanLedger.Column
