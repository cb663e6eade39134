import LoanLedger.Binary64.Shortest
import LoanLedger.Numeral.Basic

/-!
# Binary64 numbers as text

* `Style` : the words of a printer; `plainStyle` and `jsonStyle` are the two in use;
* `write style x` : the shortest decimal of `x`, positional for decimal exponents from -4 to 15;
* `read? s` : the number that a text writes, with digits of any script, single underscores between
  digits, an exponent, or one of the names of infinity and not-a-number.
-/

namespace LoanLedger.Binary64

structure Style where
  nan : String
  infinity : String

def plainStyle : Style := ⟨"nan", "inf"⟩

def jsonStyle : Style := ⟨"NaN", "Infinity"⟩

/-- Drops the zeros at the end of a number, counting them into the exponent. -/
def dropZeros : Nat → Nat → Int → Nat × Int
  | 0, ds, k => (ds, k)
  | fuel + 1, ds, k => if ds % 10 = 0 && ds != 0 then dropZeros fuel (ds / 10) (k + 1) else (ds, k)

/-- Digits with a point after the first `place` of them, at least one digit on each side. -/
def positional (ds : List Char) (place : Int) : List Char :=
  if place ≤ 0 then '0' :: '.' :: List.replicate (-place).toNat '0' ++ ds
  else
    let n := place.toNat
    let whole := ds.take n ++ List.replicate (n - ds.length) '0'
    let rest := ds.drop n
    whole ++ '.' :: (if rest.isEmpty then ['0'] else rest)

/-- One digit, a point if more follow, and a decimal exponent of at least two digits. -/
def scientific (ds : List Char) (exponent : Int) : List Char :=
  let tail := match ds with
    | d :: e :: r => d :: '.' :: e :: r
    | r => r
  let n := (exponent.natAbs.repr).toList
  tail ++ 'e' :: (if exponent < 0 then '-' else '+') :: (if n.length < 2 then '0' :: n else n)

/-- The digits of a positive number in positional or scientific form. -/
def writeDigits (ds : Nat) (k : Int) : List Char :=
  let (ds, k) := dropZeros 20 ds k
  let cs := ds.repr.toList
  let place := k + cs.length
  if -4 < place && place ≤ 16 then positional cs place else scientific cs (place - 1)

def write (style : Style) : Binary64 → String
  | nan => style.nan
  | infinity neg => (if neg then "-" else "") ++ style.infinity
  | finite neg m e =>
    let cs := if m = 0 then ['0', '.', '0'] else
      let (ds, k) := shortest m e
      writeDigits ds k
    String.ofList (if neg then '-' :: cs else cs)

/-! ## Reading -/

/-- The exponent at the end of a number: nothing at all, or `e`, a sign and digits. -/
def readExponent? : List Char → Option Int
  | [] => some 0
  | c :: cs =>
    if c = 'e' || c = 'E' then
      let (neg, ds) := Numeral.splitSign cs
      if ds.isEmpty || !ds.all Char.isDigit then none
      else some (if neg then -(Numeral.digitsValue ds : Int) else Numeral.digitsValue ds)
    else none

/-- An unsigned decimal: digits, a point and digits, one of the two runs not empty, then perhaps an
exponent. -/
def readDecimal? (neg : Bool) (cs : List Char) : Option Binary64 :=
  let whole := cs.takeWhile Char.isDigit
  let rest := cs.dropWhile Char.isDigit
  let (frac, rest) := match rest with
    | '.' :: r => (r.takeWhile Char.isDigit, r.dropWhile Char.isDigit)
    | r => ([], r)
  if whole.isEmpty && frac.isEmpty then none
  else do
    let e ← readExponent? rest
    let ds := whole ++ frac
    pure (ofDecimal neg (Numeral.digitsValue ds) ds.length (e - frac.length))

/-- An unsigned number or one of the names. -/
def readUnsigned? (neg : Bool) (cs : List Char) : Option Binary64 :=
  let name := String.ofList (cs.map (·.toLower))
  if name = "inf" || name = "infinity" then some (infinity neg)
  else if name = "nan" then some nan
  else readDecimal? neg cs

def read? (s : String) : Option Binary64 := do
  let cs := Numeral.trimPlain (Numeral.plain s.toList)
  let cs ← Numeral.joinDigits Char.isDigit false cs
  let (neg, cs) := Numeral.splitSign cs
  readUnsigned? neg cs

end LoanLedger.Binary64
