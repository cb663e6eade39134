import LoanLedger.Binary64.Text
import LoanLedger.Calendar.Error
import LoanLedger.Calendar.Iso
import LoanLedger.Decimal.Text
import LoanLedger.Text.Quoted
import LoanLedger.Value.Basic

/-!
# Values as text

* `Value.quoted v` : `v` as it stands inside a sequence or a map: texts between quotes, times and
  identifiers under the name of their sort;
* `Value.label v` : `v` as it stands alone: texts as they are, times in ISO form;
* `Value.label? v` : the same, refused when some whole number in `v` is too long to be written;
* `Value.trimmed? v` : the label without blanks at its ends, empty for null.
-/

namespace LoanLedger

open Calendar (Date TimeOfDay Offset Timestamp)

/-- A day under the name of its sort. -/
def Value.dateText (d : Date) : String :=
  "datetime.date(" ++ ", ".intercalate [d.year.repr, d.month.repr, d.day.repr] ++ ")"

def Value.offsetText (o : Offset) : String :=
  if o.micros = 0 then "datetime.timezone.utc"
  else "datetime.timezone(" ++ Calendar.spanText o.micros ++ ")"

/-- A time under the name of its sort: seconds and microseconds only where they are not zero. -/
def Value.timeText (t : Timestamp) : String :=
  let c := t.time
  let fine := if c.micro ≠ 0 then [c.second.repr, c.micro.repr]
    else if c.second ≠ 0 then [c.second.repr] else []
  let parts := [t.date.year, t.date.month, t.date.day, c.hour, c.minute].map Nat.repr ++ fine
    ++ (t.offset.elim [] fun o => ["tzinfo=" ++ Value.offsetText o])
  "datetime.datetime(" ++ ", ".intercalate parts ++ ")"

def Value.bracketed (left right : String) (texts : List String) : String :=
  left ++ ", ".intercalate texts ++ right

mutual

/-- The value as it stands inside another one. -/
def Value.quoted : Value → String
  | .null => "None"
  | .bool b => if b then "True" else "False"
  | .int n => Numeral.ofInt n
  | .float x => x.write Binary64.plainStyle
  | .decimal d => "Decimal(" ++ Text.quoted d.write ++ ")"
  | .text s => Text.quoted s
  | .bytes bs => Text.quotedBytes bs
  | .uuid u => "UUID(" ++ Text.quoted u.write ++ ")"
  | .date d => Value.dateText d
  | .time t => Value.timeText t
  | .tag t => "<" ++ t.label ++ ": " ++ Text.quoted t.word ++ ">"
  | .list vs => Value.bracketed "[" "]" (Value.quotedList vs)
  | .tuple vs =>
    match vs with
    | [v] => "(" ++ Value.quoted v ++ ",)"
    | vs => Value.bracketed "(" ")" (Value.quotedList vs)
  | .set vs =>
    match vs with
    | [] => "set()"
    | vs => Value.bracketed "\x7b" "\x7d" (Value.quotedList vs)
  | .map es => Value.bracketed "\x7b" "\x7d" (Value.quotedEntries es)
  | .other name => "<" ++ name ++ " object>"

/-- The elements of a sequence as they stand inside it. -/
def Value.quotedList : List Value → List String
  | [] => []
  | v :: vs => Value.quoted v :: Value.quotedList vs

/-- The entries of a map as they stand inside it. -/
def Value.quotedEntries : List (Value × Value) → List String
  | [] => []
  | (k, v) :: es => (Value.quoted k ++ ": " ++ Value.quoted v) :: Value.quotedEntries es

end

mutual

/-- The largest absolute value of a whole number in a value. -/
def Value.largestInt : Value → Nat
  | .int n => n.natAbs
  | .list vs | .tuple vs | .set vs => Value.largestInts vs
  | .map es => Value.largestEntries es
  | _ => 0

/-- The largest absolute value of a whole number in some of the values. -/
def Value.largestInts : List Value → Nat
  | [] => 0
  | v :: vs => max (Value.largestInt v) (Value.largestInts vs)

/-- The largest absolute value of a whole number in some of the entries. -/
def Value.largestEntries : List (Value × Value) → Nat
  | [] => 0
  | (k, v) :: es => max (max (Value.largestInt k) (Value.largestInt v)) (Value.largestEntries es)

end

namespace Value

def label : Value → String
  | text s => s
  | decimal d => d.write
  | uuid u => u.write
  | date d => d.iso
  | time t => t.spaced
  | tag t => t.label
  | v => v.quoted

/-- Whether every whole number in the value has a text. -/
def isWritable (v : Value) : Bool :=
  v.largestInt < Nat.pow 10 Numeral.digitLimit

/-- The value as it stands alone, unless a whole number in it is too long. -/
def label? (v : Value) : Except Numeral.Error String :=
  if v.isWritable then .ok v.label else .error .numberTooLong

/-- The value as it stands inside another one, unless a whole number in it is too long. -/
def quoted? (v : Value) : Except Numeral.Error String :=
  if v.isWritable then .ok v.quoted else .error .numberTooLong

/-- The label without blanks at its ends; null has an empty one. -/
def trimmed? : Value → Except Numeral.Error String
  | null => .ok ""
  | v => v.label?.map Text.trim

end Value

end LoanLedger
