import LoanLedger.Binary64.Text
import LoanLedger.Text.Bytes
import LoanLedger.Text.Units

/-!
# JSON

* `JsonOf τ` : JSON values whose texts are of type `τ`; the members of an object stand in order and may repeat a name;
  `JsonOf.map f j`, `JsonOf.mapM? f j` : the value with other texts;
* `Json` : JSON values with texts of characters; `Wire` : those with texts of UTF-16 units, as they are written;
* `Wire.render layout w` : the text of `w`, printable ASCII only: other units of a text are written in hexadecimal;
  `Json.render layout j` : so for `j`, whose characters are one unit or two;
* `compact`, `spaced` : the two layouts in use.
-/

namespace LoanLedger

open Text (Unit16 Units Points)

inductive JsonOf (τ : Type) where
  | null
  | bool (b : Bool)
  | int (n : Int)
  | float (x : Binary64)
  | text (s : τ)
  | list (vs : List (JsonOf τ))
  | object (members : List (τ × JsonOf τ))

namespace JsonOf

variable {τ σ : Type}

instance : Inhabited (JsonOf τ) := ⟨null⟩

mutual

/-- The value with other texts. -/
def map (f : τ → σ) : JsonOf τ → JsonOf σ
  | null => null
  | bool b => bool b
  | int n => int n
  | float x => float x
  | text s => text (f s)
  | list vs => list (mapList f vs)
  | object ms => object (mapMembers f ms)

def mapList (f : τ → σ) : List (JsonOf τ) → List (JsonOf σ)
  | [] => []
  | v :: vs => map f v :: mapList f vs

def mapMembers (f : τ → σ) : List (τ × JsonOf τ) → List (σ × JsonOf σ)
  | [] => []
  | (name, v) :: ms => (f name, map f v) :: mapMembers f ms

end

mutual

/-- The value with other texts, if each text has one. -/
def mapM? (f : τ → Option σ) : JsonOf τ → Option (JsonOf σ)
  | null => some null
  | bool b => some (bool b)
  | int n => some (int n)
  | float x => some (float x)
  | text s => (f s).map text
  | list vs => (mapListM? f vs).map list
  | object ms => (mapMembersM? f ms).map object

def mapListM? (f : τ → Option σ) : List (JsonOf τ) → Option (List (JsonOf σ))
  | [] => some []
  | v :: vs => do
    let v ← mapM? f v
    let vs ← mapListM? f vs
    pure (v :: vs)

def mapMembersM? (f : τ → Option σ) : List (τ × JsonOf τ) → Option (List (σ × JsonOf σ))
  | [] => some []
  | (name, v) :: ms => do
    let name ← f name
    let v ← mapM? f v
    let ms ← mapMembersM? f ms
    pure ((name, v) :: ms)

end

end JsonOf

/-- A JSON value. -/
abbrev Json := JsonOf String

/-- A JSON value as it is written. -/
abbrev Wire := JsonOf Units

namespace Json

export JsonOf (null bool int float text list object)

/-- What stands between elements, and between a name and its value. -/
structure Layout where
  comma : List Char
  colon : List Char

def compact : Layout := ⟨[','], [':']⟩

def spaced : Layout := ⟨[',', ' '], [':', ' ']⟩

end Json

/-! ## Text -/

namespace Wire

open Json (Layout)

export JsonOf (null bool int float text list object)

def unitEscape (u : Unit16) : List Char :=
  '\\' :: 'u' :: Text.hexChars 4 u.val

/-- How one unit stands in a text. -/
def escapeUnit (u : Unit16) : List Char :=
  let n := u.val
  if n = 0x22 then ['\\', '"']
  else if n = 0x5C then ['\\', '\\']
  else if n = 0x0A then ['\\', 'n']
  else if n = 0x0D then ['\\', 'r']
  else if n = 0x09 then ['\\', 't']
  else if n = 0x0C then ['\\', 'f']
  else if n = 0x08 then ['\\', 'b']
  else if 0x20 ≤ n && n ≤ 0x7E then [Char.ofNat n]
  else unitEscape u

def renderText (s : Units) : List Char :=
  '"' :: s.flatMap escapeUnit ++ ['"']

/-! ## Values -/

def join (between : List Char) : List (List Char) → List Char
  | [] => []
  | [t] => t
  | t :: ts => t ++ between ++ join between ts

mutual

/-- The characters of a value. -/
def renderChars (layout : Layout) : Wire → List Char
  | null => "null".toList
  | bool b => if b then "true".toList else "false".toList
  | int n => (Numeral.ofInt n).toList
  | float x => (x.write Binary64.jsonStyle).toList
  | text s => renderText s
  | list vs => '[' :: join layout.comma (renderList layout vs) ++ [']']
  | object ms => '\x7b' :: join layout.comma (renderMembers layout ms) ++ ['\x7d']

def renderList (layout : Layout) : List Wire → List (List Char)
  | [] => []
  | v :: vs => renderChars layout v :: renderList layout vs

def renderMembers (layout : Layout) : List (Units × Wire) → List (List Char)
  | [] => []
  | (name, v) :: ms =>
    (renderText name ++ layout.colon ++ renderChars layout v) :: renderMembers layout ms

end

def render (layout : Layout) (w : Wire) : String :=
  String.ofList (renderChars layout w)

end Wire

/-! ## Characters -/

def Json.unitsOf (s : String) : Units := (Points.ofString s).units

/-- The text of UTF-16 units, unless a surrogate stands alone. -/
def Json.ofUnits? (us : Units) : Option String := (Points.ofUnits us).toString?

namespace Json

def wire (j : Json) : Wire := j.map unitsOf

def render (layout : Layout) (j : Json) : String :=
  j.wire.render layout

end Json

end LoanLedger
