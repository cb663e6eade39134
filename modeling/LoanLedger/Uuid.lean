import LoanLedger.Numeral.Basic
import LoanLedger.Text.Bytes

/-!
# Universally unique identifiers

* `Uuid` : a number of 128 bits;
* `Uuid.write u` : its 32 hexadecimal digits in groups of 8, 4, 4, 4 and 12;
* `Uuid.read? s` : the identifier that a text names, with or without braces, hyphens and the words
  of a uniform resource name.
-/

namespace LoanLedger

structure Uuid where
  number : Nat
  deriving Repr, DecidableEq

namespace Uuid

/-- Why a text names no identifier. -/
inductive Error where
  | length
  /-- These characters are no hexadecimal number. -/
  | digits (text : String)
  | range
  deriving Repr, DecidableEq

def write (u : Uuid) : String :=
  let ds := Text.hexChars 32 u.number
  let groups := [ds.take 8, (ds.drop 8).take 4, (ds.drop 12).take 4, (ds.drop 16).take 4, ds.drop 20]
  String.ofList ("-".toList.intercalate groups)

/-- Removes every occurrence of a word, from the left. -/
def removeWord (word : List Char) : Nat → List Char → List Char
  | 0, cs => cs
  | _, [] => []
  | fuel + 1, c :: cs =>
    if word.isPrefixOf (c :: cs) then removeWord word fuel ((c :: cs).drop word.length)
    else c :: removeWord word fuel cs

def trimBraces (cs : List Char) : List Char :=
  let isBrace (c : Char) : Bool := c = '\x7b' || c = '\x7d'
  ((cs.dropWhile isBrace).reverse.dropWhile isBrace).reverse

/-- The characters of a text without what may surround them. -/
def bareDigits (s : String) : List Char :=
  let cs := s.toList
  let cs := removeWord "urn:".toList cs.length cs
  let cs := removeWord "uuid:".toList cs.length cs
  (trimBraces cs).filter (· ≠ '-')

/-- Drops the mark of a hexadecimal number and one underscore after it. -/
def dropMark : List Char → List Char
  | '0' :: x :: '_' :: cs => if x = 'x' || x = 'X' then cs else '0' :: x :: '_' :: cs
  | '0' :: x :: cs => if x = 'x' || x = 'X' then cs else '0' :: x :: cs
  | cs => cs

/-- The hexadecimal number that the characters write: digits with single underscores between them,
perhaps a sign and the mark `0x`, and blanks around all of it. -/
def hexNumber? (cs : List Char) : Option Int := do
  let (neg, cs) := Numeral.splitSign (Numeral.trimPlain (Numeral.plain cs))
  let ds ← Numeral.joinDigits (fun c => (Text.hexValue? c).isSome) false (dropMark cs)
  if ds.isEmpty then none
  else do
    let n ← Text.ofHexChars? ds
    pure (if neg then -(n : Int) else n)

def read? (s : String) : Except Error Uuid :=
  let ds := bareDigits s
  if ds.length ≠ 32 then .error .length
  else match hexNumber? ds with
    | none => .error (.digits (String.ofList ds))
    | some n => if n < 0 then .error .range else .ok ⟨n.toNat⟩

end Uuid

end LoanLedger
