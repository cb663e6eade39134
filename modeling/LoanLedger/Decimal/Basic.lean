/-!
# Decimal numbers

* `Decimal` : `± coefficient · 10 ^ exponent` with its zeros kept, the infinities and the two sorts
  of not-a-number;
* `normalize` : rounded to `precision` digits, a half to the even neighbour, and without trailing
  zeros: equal numbers become the same one;
* `compare?` : the order, undefined for not-a-number;
* `truncate?` : the whole part.
-/

namespace LoanLedger

/-- A decimal number. `1.10` is kept apart from `1.1`. -/
inductive Decimal where
  /-- Not a number; a signalling one refuses to take part in arithmetic. -/
  | nan (negative signalling : Bool) (payload : String)
  | infinity (negative : Bool)
  | finite (negative : Bool) (coefficient : Nat) (exponent : Int)
  deriving Repr, DecidableEq

namespace Decimal

/-- Why arithmetic fails. -/
inductive Error where
  | invalidOperation
  /-- The result is too large. -/
  | overflow
  deriving Repr, DecidableEq

def precision : Nat := 28

def maxExponent : Int := 999999

def minExponent : Int := -1000026

/-- The number of decimal digits of a number, one for zero. -/
def digitCount (n : Nat) : Nat :=
  n.repr.length

def leading (coefficient : Nat) (exponent : Int) : Int :=
  exponent + digitCount coefficient - 1

/-- Drops the last `n` digits, rounding a half to the even neighbour. -/
def dropDigits (coefficient n : Nat) : Nat :=
  let unit := Nat.pow 10 n
  let q := coefficient / unit
  let r := coefficient % unit
  if 2 * r < unit then q else if unit < 2 * r then q + 1 else q + q % 2

/-- Drops the zeros at the end of a coefficient, counting them into the exponent. -/
def dropZeros : Nat → Nat → Int → Nat × Int
  | 0, c, e => (c, e)
  | fuel + 1, c, e => if c % 10 = 0 then dropZeros fuel (c / 10) (e + 1) else (c, e)

/-- The number rounded to the kept digits, without trailing zeros. -/
def normalize : Decimal → Except Error Decimal
  | nan _ true _ => .error .invalidOperation
  | nan neg false payload => .ok (nan neg false payload)
  | infinity neg => .ok (infinity neg)
  | finite neg c e =>
    if c = 0 then .ok (finite neg 0 0)
    else
      let excess := max (digitCount c - precision) (minExponent - e).toNat
      let c' := if excess = 0 then c else dropDigits c excess
      let e' := e + excess
      if c' = 0 then .ok (finite neg 0 0)
      else if maxExponent < leading c' e' then .error .overflow
      else
        let (c'', e'') := dropZeros (digitCount c') c' e'
        .ok (finite neg c'' e'')

def isZero : Decimal → Bool
  | finite _ 0 _ => true
  | _ => false

/-- The number as a fraction with a positive denominator. -/
def toRatio? : Decimal → Option (Int × Nat)
  | finite neg c e =>
    let n : Nat := if 0 ≤ e then c * Nat.pow 10 e.toNat else c
    some (if neg then -(n : Int) else n, if 0 ≤ e then 1 else Nat.pow 10 (-e).toNat)
  | _ => none

def truncate? : Decimal → Option Int
  | finite neg c e =>
    let n : Nat := if 0 ≤ e then c * Nat.pow 10 e.toNat else c / Nat.pow 10 (-e).toNat
    some (if neg then -(n : Int) else n)
  | _ => none

end LoanLedger.Decimal
