import LoanLedger.Text.Bytes
import LoanLedger.Text.Printable

/-!
# Quoted text in messages

* `quoted s` : `s` between single quotes, or between double quotes when it holds a single quote
  and no double one; the quote in use, the backslash and unprintable characters are escaped;
* `quotedBytes bs` : the same for a byte string, with a `b` in front.
-/

namespace LoanLedger.Text

/-- The quote that surrounds a text: the double one only where it saves escapes. -/
def quoteFor (cs : List Char) : Char :=
  if cs.contains '\'' && !cs.contains '"' then '"' else '\''

/-- The shortest numeric escape of a character: two, four or eight hexadecimal digits. -/
def numericEscape (n : Nat) : List Char :=
  if n < 0x100 then '\\' :: 'x' :: hexChars 2 n
  else if n < 0x10000 then '\\' :: 'u' :: hexChars 4 n
  else '\\' :: 'U' :: hexChars 8 n

/-- How one character stands between quotes `q`. -/
def quotedChar (q c : Char) : List Char :=
  if c = q || c = '\\' then ['\\', c]
  else if c = '\t' then ['\\', 't']
  else if c = '\n' then ['\\', 'n']
  else if c = '\r' then ['\\', 'r']
  else if isPrintable c then [c]
  else numericEscape c.toNat

def quoted (s : String) : String :=
  let cs := s.toList
  let q := quoteFor cs
  String.ofList (q :: cs.flatMap (quotedChar q) ++ [q])

/-- How one byte stands between quotes `q`: outside printable ASCII by number. -/
def quotedByte (q : Char) (b : UInt8) : List Char :=
  let n := b.toNat
  if n < 0x7F then quotedChar q (Char.ofNat n) else numericEscape n

def quotedBytes (bs : List UInt8) : String :=
  let q := quoteFor (bs.map fun b => Char.ofNat b.toNat)
  String.ofList ('b' :: q :: bs.flatMap (quotedByte q) ++ [q])

end LoanLedger.Text
