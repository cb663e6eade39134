import LoanLedger.Json.OfValue

/-!
# What records hold

Texts of a record may hold surrogates, which a `Value` cannot.

* `Item` : a value, or a text, a list or a map with such texts in it; an object that is written as another one is that
  one;
* `Item.json? x` : the JSON that is written for `x`; `fieldsJson? fields` : an object of it.
-/

namespace LoanLedger.Log

open Text (Points)

/-- A value with any texts. A key of a map is a plain value or a text. -/
inductive Item where
  | plain (v : Value)
  | text (s : Points)
  | list (vs : List Item)
  | map (es : List ((Value ⊕ Points) × Item))

/-- JSON with any texts. -/
abbrev Doc := JsonOf Points

abbrev Fields := List (Points × Item)

namespace Item

def keyText? : Value ⊕ Points → Except Json.Error Points
  | .inl k => (Json.keyText? k).map .ofString
  | .inr s => .ok s

mutual

def json? : Item → Except Json.Error Doc
  | plain v => (Json.ofValue Json.logged v).map (·.map .ofString)
  | text s => .ok (.text s)
  | list vs => (jsonList? vs).map .list
  | map es => (jsonMembers? es).map .object

def jsonList? : List Item → Except Json.Error (List Doc)
  | [] => .ok []
  | v :: vs => do
    let j ← json? v
    let js ← jsonList? vs
    pure (j :: js)

def jsonMembers? : List ((Value ⊕ Points) × Item) → Except Json.Error (List (Points × Doc))
  | [] => .ok []
  | (k, v) :: es => do
    let name ← keyText? k
    let j ← json? v
    let ms ← jsonMembers? es
    pure ((name, j) :: ms)

end

end Item

def fieldsJson? (fields : Fields) : Except Json.Error Doc :=
  (Item.map (fields.map fun f => (.inr f.1, f.2))).json?

def Fields.ofValues (fields : List (String × Value)) : Fields :=
  fields.map fun f => (.ofString f.1, .plain f.2)

end LoanLedger.Log
