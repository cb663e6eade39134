/-!
# Numbers in the binary64 format

* `Binary64` : not-a-number, the infinities, and `± m · 2 ^ e` with `m < 2 ^ 53` and
  `-1074 ≤ e ≤ 971`, where `m < 2 ^ 52` only for the least exponent;
* `ofRatio neg num den` : the number nearest to a quotient, of two the one with even `m`;
* `ofDecimal neg ds e` : the number nearest to `ds · 10 ^ e`;
* `compare?` : the order, undefined for not-a-number; zeros of both signs are equal;
* `truncate?` : the whole part;
* `negate x`, `mul x y`, `add x y` : the exact result rounded to the nearest number of the format; a sum of zero is
  positive unless both terms are negative zeros.
-/

namespace LoanLedger

inductive Binary64 where
  | nan
  | infinity (negative : Bool)
  | finite (negative : Bool) (mantissa : Nat) (exponent : Int)
  deriving Repr, DecidableEq

namespace Binary64

/-- The quotient rounded to the nearest whole number, a half to the even neighbour. -/
def roundDiv (num den : Nat) : Nat :=
  let q := num / den
  let r := num % den
  if 2 * r < den then q
  else if den < 2 * r then q + 1
  else q + q % 2

/-- The whole number `k` with `2 ^ k ≤ num / den < 2 ^ (k + 1)`, for positive `num` and `den`. -/
def log2Ratio (num den : Nat) : Int :=
  let k : Int := (num.log2 : Int) - den.log2
  let reached : Bool := if 0 ≤ k then den * Nat.pow 2 k.toNat ≤ num else den ≤ num * Nat.pow 2 (-k).toNat
  if reached then k else k - 1

/-- The number nearest to `± num / den`; what lies half a unit beyond the largest number or
farther is an infinity. -/
def ofRatio (neg : Bool) (num den : Nat) : Binary64 :=
  if num = 0 then finite neg 0 (-1074)
  else
    let q : Int := max (log2Ratio num den - 52) (-1074)
    let m := if 0 ≤ q then roundDiv num (den * Nat.pow 2 q.toNat) else roundDiv (num * Nat.pow 2 (-q).toNat) den
    let (m, q) := if m = Nat.pow 2 53 then (Nat.pow 2 52, q + 1) else (m, q)
    if 971 < q then infinity neg else finite neg m q

/-- The number nearest to `± ds · 10 ^ e`, where `width` bounds the number of digits of `ds`: far
outside the range of the format the exponent alone decides. -/
def ofDecimal (neg : Bool) (ds width : Nat) (e : Int) : Binary64 :=
  if ds = 0 then finite neg 0 (-1074)
  else if 400 < e then infinity neg
  else if e + width < -400 then finite neg 0 (-1074)
  else if 0 ≤ e then ofRatio neg (ds * Nat.pow 10 e.toNat) 1
  else ofRatio neg ds (Nat.pow 10 (-e).toNat)

/-- The number nearest to a whole number; nothing when that is an infinity. -/
def ofInt? (n : Int) : Option Binary64 :=
  match ofRatio (n < 0) n.natAbs 1 with
  | infinity _ => none
  | x => some x

def isZero : Binary64 → Bool
  | finite _ 0 _ => true
  | _ => false

/-- Whether the number is below zero. -/
def isNegative : Binary64 → Bool
  | infinity neg => neg
  | finite neg m _ => neg && m != 0
  | nan => false

/-- The number as a fraction with a positive denominator. -/
def toRatio? : Binary64 → Option (Int × Nat)
  | finite neg m e =>
    let n : Nat := if 0 ≤ e then m * Nat.pow 2 e.toNat else m
    some (if neg then -(n : Int) else n, if 0 ≤ e then 1 else Nat.pow 2 (-e).toNat)
  | _ => none

/-- The order of a number and a fraction with a positive denominator. -/
def compareRatio? (x : Binary64) (num : Int) (den : Nat) : Option Ordering :=
  match x with
  | nan => none
  | infinity neg => some (if neg then .lt else .gt)
  | finite neg m e =>
    match toRatio? (finite neg m e) with
    | some (n, d) => some (compare (n * den) (num * d))
    | none => none

/-- The order of two numbers, undefined where one is not-a-number. -/
def compare? (x y : Binary64) : Option Ordering :=
  match y with
  | nan => none
  | infinity neg =>
    match x with
    | nan => none
    | infinity neg' => some (compare neg.toNat neg'.toNat)
    | finite .. => some (if neg then .gt else .lt)
  | finite neg m e =>
    match toRatio? (finite neg m e) with
    | some (n, d) => compareRatio? x n d
    | none => none

def truncate? : Binary64 → Option Int
  | finite neg m e =>
    let n : Nat := if 0 ≤ e then m * Nat.pow 2 e.toNat else m / Nat.pow 2 (-e).toNat
    some (if neg then -(n : Int) else n)
  | _ => none

/-! ## Sums and products -/

def hasMinus : Binary64 → Bool
  | infinity neg => neg
  | finite neg _ _ => neg
  | nan => false

def negate : Binary64 → Binary64
  | infinity neg => infinity !neg
  | finite neg m e => finite (!neg) m e
  | nan => nan

def mul (x y : Binary64) : Binary64 :=
  let neg := x.hasMinus ^^ y.hasMinus
  match x.toRatio?, y.toRatio? with
  | some (a, b), some (c, d) => ofRatio neg (a * c).natAbs (b * d)
  | _, _ => if x = nan || y = nan || x.isZero || y.isZero then nan else infinity neg

def add (x y : Binary64) : Binary64 :=
  match x.toRatio?, y.toRatio? with
  | some (a, b), some (c, d) =>
    let n := a * d + c * b
    ofRatio (n < 0 || (n = 0 && x.hasMinus && y.hasMinus)) n.natAbs (b * d)
  | some _, none => y
  | none, some _ => x
  | none, none => if x = y then x else nan

end Binary64

end LoanLedger
