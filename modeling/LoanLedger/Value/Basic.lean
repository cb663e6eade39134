import LoanLedger.Audit.Tag
import LoanLedger.Binary64.Basic
import LoanLedger.Calendar.Timestamp
import LoanLedger.Decimal.Basic
import LoanLedger.Uuid

/-!
# Values

Documents, event payloads and audit attributes hold values of many sorts.

* `Value` : scalars, sequences, and maps with keys of any sort in the order in which they were put in;
* `Value.sort v` : the name of the sort of `v`; `Value.fullSort v` : the name with its family;
* `Value.isTruthy v` : whether `v` counts as present: zero, empty and null values do not;
* `Value.text? v` : the text of `v`, where `v` is a text or an audit tag.
-/

namespace LoanLedger

/-- A value of a document, a payload or an attribute. -/
inductive Value where
  | null
  | bool (b : Bool)
  | int (n : Int)
  | float (x : Binary64)
  | decimal (d : Decimal)
  | text (s : String)
  | bytes (bs : List UInt8)
  | uuid (u : Uuid)
  | date (d : Calendar.Date)
  | time (t : Calendar.Timestamp)
  /-- An audit tag; it also counts as the text of its word. -/
  | tag (t : Audit.Tag)
  | list (vs : List Value)
  | tuple (vs : List Value)
  /-- A set, without order of its own: the elements stand as they were put in. -/
  | set (vs : List Value)
  | map (entries : List (Value × Value))
  /-- A thing of another sort, known only by the name of the sort. -/
  | other (sortName : String)

namespace Value

/-- Null is the default value. -/
instance : Inhabited Value := ⟨null⟩

/-- The name of the sort of a value. -/
def sort : Value → String
  | null => "NoneType"
  | bool _ => "bool"
  | int _ => "int"
  | float _ => "float"
  | decimal _ => "Decimal"
  | text _ => "str"
  | bytes _ => "bytes"
  | uuid _ => "UUID"
  | date _ => "date"
  | time _ => "datetime"
  | tag _ => "AuditTag"
  | list _ => "list"
  | tuple _ => "tuple"
  | set _ => "set"
  | map _ => "dict"
  | other name => name

/-- The name of the sort with the family in front, where the sort is not of the first rank. -/
def fullSort : Value → String
  | decimal _ => "decimal.Decimal"
  | date _ => "datetime.date"
  | time _ => "datetime.datetime"
  | v => v.sort

/-- Whether a value counts as present. -/
def isTruthy : Value → Bool
  | null => false
  | bool b => b
  | int n => n != 0
  | float x => !x.isZero
  | decimal d => !d.isZero
  | text s => s != ""
  | bytes bs => !bs.isEmpty
  | list vs | tuple vs | set vs => !vs.isEmpty
  | map es => !es.isEmpty
  | _ => true

def text? : Value → Option String
  | text s => some s
  | tag t => some t.word
  | _ => none

def ofText? : Option String → Value
  | some s => text s
  | none => null

end Value

end LoanLedger
