import LoanLedger.Json.Basic
import LoanLedger.Value.Order
import LoanLedger.Value.Text

/-!
# Values as JSON

* `Style` : the order of members, and what becomes of values that JSON does not have;
* `Json.ofValue style v` : the JSON of `v`; keys of maps become texts;
* `Json.canonical`, `Json.document`, `Json.logged`, `Json.storage` : the four styles in use;
* `Json.toValue j` : the value that is read back: of members with the same name the last one counts.

The order of members is that of the keys before they become texts.
-/

namespace LoanLedger.Json

/-- Why a value has no JSON. -/
inductive Error where
  /-- A whole number has too many digits. -/
  | numberTooLong
  | key (sort : String)
  /-- Two keys of one map have no order. -/
  | clash (c : Clash)
  | noForm (sort : String)
  | decimal (e : Decimal.Error)
  deriving Repr, DecidableEq

structure Style where
  isSorted : Bool
  listsSets : Bool
  leaf : Value → Except Error Json

/-- The text that a key becomes. -/
def keyText? : Value → Except Error String
  | .null => .ok "null"
  | .bool b => .ok (if b then "true" else "false")
  | .int n => match Numeral.ofInt? n with
    | .ok s => .ok s
    | .error _ => .error .numberTooLong
  | .float x => .ok (x.write Binary64.jsonStyle)
  | k => match k.text? with
    | some s => .ok s
    | none => .error (.key k.fullSort)

/-- The members of an object, in the order in which the keys and values are turned to JSON. -/
def members? : List (Value × Except Error Json) → Except Error (List (String × Json))
  | [] => .ok []
  | (k, v) :: es => do
    let name ← keyText? k
    let v ← v
    let ms ← members? es
    pure ((name, v) :: ms)

/-- The members of an object from entries that may have to be sorted. -/
def sortedMembers? (isSorted : Bool) (es : List (Value × Except Error Json)) :
    Except Error (List (String × Json)) :=
  if isSorted then
    match sortKeys? es with
    | .ok es => members? es
    | .error c => .error (.clash c)
  else members? es

mutual

/-- The JSON of a value. -/
def ofValue (style : Style) : Value → Except Error Json
  | .null => .ok .null
  | .bool b => .ok (.bool b)
  | .int n => if n.natAbs < Nat.pow 10 Numeral.digitLimit then .ok (.int n) else .error .numberTooLong
  | .float x => .ok (.float x)
  | .text s => .ok (.text s)
  | .tag t => .ok (.text t.word)
  | .list vs => (ofValues style vs).map .list
  | .tuple vs => (ofValues style vs).map .list
  | .set vs => if style.listsSets then (ofValues style vs).map .list else style.leaf (.set vs)
  | .map es => (sortedMembers? style.isSorted (ofEntries style es)).map .object
  | v => style.leaf v

/-- The JSON of each value, up to the first that has none. -/
def ofValues (style : Style) : List Value → Except Error (List Json)
  | [] => .ok []
  | v :: vs => do
    let j ← ofValue style v
    let js ← ofValues style vs
    pure (j :: js)

/-- The JSON of the value of each entry, or why it has none. -/
def ofEntries (style : Style) : List (Value × Value) → List (Value × Except Error Json)
  | [] => []
  | (k, v) :: es => (k, ofValue style v) :: ofEntries style es

end

/-! ## Styles -/

/-- A value as the text that stands for it alone. -/
def labelLeaf (v : Value) : Except Error Json :=
  match v.label? with
  | .ok s => .ok (.text s)
  | .error _ => .error .numberTooLong

/-- The same JSON for the same content: sorted members, decimals in normal form, times in ISO form,
bytes in hexadecimal. -/
def canonical : Style where
  isSorted := true
  listsSets := false
  leaf
    | .decimal d => match d.normalize with
      | .ok d => .ok (.text d.write)
      | .error e => .error (.decimal e)
    | .time t => .ok (.text t.iso)
    | .date d => .ok (.text d.iso)
    | .uuid u => .ok (.text u.write)
    | .bytes bs => .ok (.text (Text.hexOfBytes bs))
    | v => .error (.noForm v.sort)

def document : Style where
  isSorted := true
  listsSets := false
  leaf := labelLeaf

/-- Members in their order, sets as lists, times in ISO form, and labels for the rest. -/
def logged : Style where
  isSorted := false
  listsSets := true
  leaf
    | .time t => .ok (.text t.iso)
    | .date d => .ok (.text d.iso)
    | v => labelLeaf v

def storage : Style where
  isSorted := false
  listsSets := false
  leaf v := .error (.noForm v.sort)

/-! ## Reading back -/

mutual

/-- The value that a JSON value stands for. -/
def toValue : Json → Value
  | .null => .null
  | .bool b => .bool b
  | .int n => .int n
  | .float x => .float x
  | .text s => .text s
  | .list vs => .list (toValues vs)
  | .object ms => Value.ofPairs (toPairs ms)

def toValues : List Json → List Value
  | [] => []
  | v :: vs => toValue v :: toValues vs

/-- The pairs that the members of an object stand for. -/
def toPairs : List (String × Json) → List (Value × Value)
  | [] => []
  | (name, v) :: ms => (.text name, toValue v) :: toPairs ms

end

end LoanLedger.Json
