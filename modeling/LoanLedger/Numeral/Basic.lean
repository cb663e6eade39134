import LoanLedger.Text.Blank

/-!
# Whole numbers as decimal text

* `Text.zeroDigits` : the code points of the digit zero in each script that has decimal digits
  (version 14 of the character database); the digits one to nine follow each of them;
* `Text.digitValue? c` : the value of `c` when it is a decimal digit;
* `ofInt n` : the shortest decimal text of `n`;
* `digitLimit` : the longest run of digits that is turned into a number, or a number into;
* `ofInt? n` : `ofInt n`, refused beyond the limit;
* `toInt? s` : the number that `s` writes: an optional sign and digits of any script, single
  underscores between them, blanks around it.
-/

namespace LoanLedger.Text

/-- The zeros of all scripts, in increasing order. -/
def zeroDigits : List Nat := [
  0x30, 0x660, 0x6F0, 0x7C0, 0x966, 0x9E6, 0xA66, 0xAE6, 0xB66, 0xBE6, 0xC66, 0xCE6, 0xD66,
  0xDE6, 0xE50, 0xED0, 0xF20, 0x1040, 0x1090, 0x17E0, 0x1810, 0x1946, 0x19D0, 0x1A80, 0x1A90,
  0x1B50, 0x1BB0, 0x1C40, 0x1C50, 0xA620, 0xA8D0, 0xA900, 0xA9D0, 0xA9F0, 0xAA50, 0xABF0, 0xFF10,
  0x104A0, 0x10D30, 0x11066, 0x110F0, 0x11136, 0x111D0, 0x112F0, 0x11450, 0x114D0, 0x11650,
  0x116C0, 0x11730, 0x118E0, 0x11950, 0x11C50, 0x11D50, 0x11DA0, 0x16A60, 0x16AC0, 0x16B50,
  0x1D7CE, 0x1D7D8, 0x1D7E2, 0x1D7EC, 0x1D7F6, 0x1E140, 0x1E2F0, 0x1E950, 0x1FBF0]

def digitValue? (c : Char) : Option Nat :=
  let n := c.toNat
  if n < 0x80 then if 0x30 ≤ n && n ≤ 0x39 then some (n - 0x30) else none
  else (zeroDigits.find? fun z => z ≤ n && n < z + 10).map (n - ·)

end LoanLedger.Text

namespace LoanLedger.Numeral

/-- Why a text is no number, or a number has no text. -/
inductive Error where
  /-- The text does not have the form of a number. -/
  | malformed
  | textTooLong (digits : Nat)
  /-- The number has more digits than are ever written. -/
  | numberTooLong
  deriving Repr, DecidableEq

/-- The shortest decimal text of a whole number. -/
def ofInt : Int → String
  | .ofNat n => n.repr
  | .negSucc n => "-" ++ (n + 1).repr

/-- The most digits that a conversion between numbers and text handles. -/
def digitLimit : Nat := 4300

/-- The text of a number of at most `digitLimit` digits. -/
def ofInt? (n : Int) : Except Error String :=
  if n.natAbs < Nat.pow 10 digitLimit then .ok (ofInt n) else .error .numberTooLong

/-- The characters as plain text for a reader of numbers: digits of any script become ASCII digits
and blanks outside ASCII become spaces; everything else outside ASCII becomes a question mark,
which no number contains. -/
def plain (cs : List Char) : List Char :=
  cs.map fun c =>
    if c.toNat < 0x7F then c
    else if Text.isBlank c then ' '
    else match Text.digitValue? c with
      | some d => Char.ofNat (0x30 + d)
      | none => '?'

/-- The blanks of ASCII that may surround a number. -/
def isPlainBlank (c : Char) : Bool :=
  c = ' ' || (9 ≤ c.toNat && c.toNat ≤ 13)

/-- Drops the plain blanks at both ends. -/
def trimPlain (cs : List Char) : List Char :=
  ((cs.dropWhile isPlainBlank).reverse.dropWhile isPlainBlank).reverse

/-- Splits a sign off: `true` for a minus. -/
def splitSign : List Char → Bool × List Char
  | '-' :: cs => (true, cs)
  | '+' :: cs => (false, cs)
  | cs => (false, cs)

/-- Removes underscores that stand singly between two digits; any other one makes the text
malformed. The flag says whether the character before was a digit. -/
def joinDigits (isDigit : Char → Bool) : Bool → List Char → Option (List Char)
  | _, [] => some []
  | true, '_' :: c :: cs =>
    if isDigit c then (joinDigits isDigit true cs).map (c :: ·) else none
  | _, '_' :: _ => none
  | _, c :: cs => (joinDigits isDigit (isDigit c) cs).map (c :: ·)

def digitsValue (cs : List Char) : Nat :=
  cs.foldl (fun n c => 10 * n + (c.toNat - 0x30)) 0

/-- The number written by a text. -/
def toInt? (s : String) : Except Error Int :=
  let (neg, cs) := splitSign (trimPlain (plain s.toList))
  match joinDigits Char.isDigit false cs with
  | none => .error .malformed
  | some ds =>
    if ds.isEmpty || !ds.all Char.isDigit then .error .malformed
    else if digitLimit < ds.length then .error (.textTooLong ds.length)
    else .ok (if neg then -(digitsValue ds : Int) else digitsValue ds)

end LoanLedger.Numeral
