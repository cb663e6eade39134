import LoanLedger.Json.Basic

/-!
# Reading JSON

* `Wire.read? s` : the JSON value that `s` writes, with blanks anywhere between its parts; the members of an object
  keep their order, and repeated names are kept;
* `Json.read? s` : so with texts of characters, unless a surrogate stands alone in one of them.
-/

namespace LoanLedger

open Text (Unit16 Units)

namespace Wire

def skipBlanks (cs : List Char) : List Char :=
  cs.dropWhile fun c => c = ' ' || c = '\n' || c = '\r' || c = '\t'

/-- The rest of the characters behind a word. -/
def expect? : List Char → List Char → Option (List Char)
  | [], cs => some cs
  | w :: ws, c :: cs => if w = c then expect? ws cs else none
  | _ :: _, [] => none

/-- The UTF-16 unit of four hexadecimal digits. -/
def readUnit? : List Char → Option (Unit16 × List Char)
  | a :: b :: c :: d :: cs => (Text.ofHexChars? [a, b, c, d]).map (Fin.ofNat 0x10000 ·, cs)
  | _ => none

/-- The unit of an escape behind its backslash. -/
def readEscape? : List Char → Option (Unit16 × List Char)
  | 'u' :: cs => readUnit? cs
  | 'n' :: cs => some (0x0A, cs)
  | 'r' :: cs => some (0x0D, cs)
  | 't' :: cs => some (0x09, cs)
  | 'b' :: cs => some (0x08, cs)
  | 'f' :: cs => some (0x0C, cs)
  | '"' :: cs => some (0x22, cs)
  | '\\' :: cs => some (0x5C, cs)
  | '/' :: cs => some (0x2F, cs)
  | _ => none

/-- The units of a text up to its closing quote. -/
def readText? : Nat → List Char → Option (Units × List Char)
  | 0, _ => none
  | _, [] => none
  | fuel + 1, c :: cs =>
    if c = '"' then some ([], cs)
    else if c = '\\' then do
      let (u, cs) ← readEscape? cs
      let (s, cs) ← readText? fuel cs
      pure (u :: s, cs)
    else do
      let (s, cs) ← readText? fuel cs
      pure ((Text.Point.ofChar c).units ++ s, cs)

/-- A number: a whole one has neither a point nor an exponent. -/
def readNumber? (cs : List Char) : Option (Wire × List Char) :=
  let isPart (c : Char) : Bool := c.isDigit || c = '-' || c = '+' || c = '.' || c = 'e' || c = 'E'
  let (neg, ds) := Numeral.splitSign (cs.takeWhile isPart)
  let rest := cs.dropWhile isPart
  if ds.isEmpty then none
  else if ds.all Char.isDigit then
    let n : Int := Numeral.digitsValue ds
    some (.int (if neg then -n else n), rest)
  else (Binary64.readDecimal? neg ds).map fun x => (.float x, rest)

mutual

/-- The value at the front of the characters. -/
def readValue? : Nat → List Char → Option (Wire × List Char)
  | 0, _ => none
  | fuel + 1, cs =>
    match skipBlanks cs with
    | 'n' :: cs => (expect? "ull".toList cs).map (.null, ·)
    | 't' :: cs => (expect? "rue".toList cs).map (.bool true, ·)
    | 'f' :: cs => (expect? "alse".toList cs).map (.bool false, ·)
    | '"' :: cs => (readText? (cs.length + 1) cs).map fun r => (.text r.1, r.2)
    | '[' :: cs => do
      let (vs, cs) ← match skipBlanks cs with
        | ']' :: cs => some ([], cs)
        | cs => readElements? fuel cs
      pure (.list vs, cs)
    | '\x7b' :: cs => do
      let (ms, cs) ← match skipBlanks cs with
        | '\x7d' :: cs => some ([], cs)
        | cs => readMembers? fuel cs
      pure (.object ms, cs)
    | cs => readNumber? cs

/-- The elements of a list up to its closing bracket. -/
def readElements? : Nat → List Char → Option (List Wire × List Char)
  | 0, _ => none
  | fuel + 1, cs => do
    let (v, cs) ← readValue? fuel cs
    match skipBlanks cs with
    | ',' :: cs => do
      let (vs, cs) ← readElements? fuel cs
      pure (v :: vs, cs)
    | ']' :: cs => pure ([v], cs)
    | _ => none

/-- The members of an object up to its closing brace. -/
def readMembers? : Nat → List Char → Option (List (Units × Wire) × List Char)
  | 0, _ => none
  | fuel + 1, cs =>
    match skipBlanks cs with
    | '"' :: cs => do
      let (name, cs) ← readText? (cs.length + 1) cs
      let cs ← expect? [':'] (skipBlanks cs)
      let (v, cs) ← readValue? fuel cs
      match skipBlanks cs with
      | ',' :: cs => do
        let (ms, cs) ← readMembers? fuel cs
        pure ((name, v) :: ms, cs)
      | '\x7d' :: cs => pure ([(name, v)], cs)
      | _ => none
    | _ => none

end

def read? (s : String) : Option Wire := do
  let cs := s.toList
  let (w, rest) ← readValue? (2 * cs.length + 1) cs
  if (skipBlanks rest).isEmpty then pure w else none

end Wire

namespace Json

/-- The value that a text writes, if characters make up its texts. -/
def read? (s : String) : Option Json :=
  (Wire.read? s).bind (·.mapM? ofUnits?)

/-! ## Members -/

def member? (name : String) : Json → Option Json
  | .object ms => ms.lookup name
  | _ => none

end Json

end LoanLedger
