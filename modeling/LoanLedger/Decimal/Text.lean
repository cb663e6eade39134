import LoanLedger.Decimal.Basic
import LoanLedger.Numeral.Basic

/-!
# Decimal numbers as text

* `write d` : every digit of the coefficient; positional when the exponent is not positive and the
  leading digit stands at most six places behind the point, scientific otherwise;
* `read? s` : the decimal that a text writes, with digits of any script.
-/

namespace LoanLedger.Decimal

/-- The text of a finite number without its sign. -/
def writeFinite (c : Nat) (e : Int) : List Char :=
  let ds := c.repr.toList
  let lead := leading c e
  if e ≤ 0 && -6 ≤ lead then
    let place := e + ds.length
    if e = 0 then ds
    else if place ≤ 0 then '0' :: '.' :: List.replicate (-place).toNat '0' ++ ds
    else ds.take place.toNat ++ '.' :: ds.drop place.toNat
  else
    let mantissa := match ds with
      | d :: r :: rs => d :: '.' :: r :: rs
      | r => r
    mantissa ++ 'E' :: (if lead < 0 then '-' else '+') :: lead.natAbs.repr.toList

def write : Decimal → String
  | nan neg signalling payload =>
    (if neg then "-" else "") ++ (if signalling then "sNaN" else "NaN") ++ payload
  | infinity neg => (if neg then "-" else "") ++ "Infinity"
  | finite neg c e =>
    String.ofList (if neg then '-' :: writeFinite c e else writeFinite c e)

/-- The exponent at the end of a number: nothing at all, or `e`, a sign and digits. -/
def readExponent? : List Char → Option Int
  | [] => some 0
  | c :: cs =>
    if c = 'e' || c = 'E' then
      let (neg, ds) := Numeral.splitSign cs
      if ds.isEmpty || !ds.all Char.isDigit then none
      else some (if neg then -(Numeral.digitsValue ds : Int) else Numeral.digitsValue ds)
    else none

/-- An unsigned decimal: digits, a point and digits, one of the two runs not empty, then perhaps an
exponent. -/
def readFinite? (neg : Bool) (cs : List Char) : Option Decimal :=
  let whole := cs.takeWhile Char.isDigit
  let rest := cs.dropWhile Char.isDigit
  let (frac, rest) := match rest with
    | '.' :: r => (r.takeWhile Char.isDigit, r.dropWhile Char.isDigit)
    | r => ([], r)
  if whole.isEmpty && frac.isEmpty then none
  else do
    let e ← readExponent? rest
    pure (finite neg (Numeral.digitsValue (whole ++ frac)) (e - frac.length))

/-- The digits that may follow the name of not-a-number, without leading zeros. -/
def readPayload? (cs : List Char) : Option String :=
  if cs.all Char.isDigit then some (String.ofList (cs.dropWhile (· = '0'))) else none

/-- An unsigned number or one of the names. -/
def readUnsigned? (neg : Bool) (cs : List Char) : Option Decimal :=
  let lower := cs.map Char.toLower
  let name := String.ofList lower
  if name = "inf" || name = "infinity" then some (infinity neg)
  else match lower with
    | 'n' :: 'a' :: 'n' :: r => (readPayload? r).map (nan neg false)
    | 's' :: 'n' :: 'a' :: 'n' :: r => (readPayload? r).map (nan neg true)
    | _ => readFinite? neg cs

def read? (s : String) : Option Decimal :=
  let cs := Numeral.trimPlain (Numeral.plain s.toList)
  let (neg, cs) := Numeral.splitSign (cs.filter (· ≠ '_'))
  readUnsigned? neg cs

end LoanLedger.Decimal
