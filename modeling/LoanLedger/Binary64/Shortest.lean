import LoanLedger.Binary64.Basic

/-!
# The shortest decimal that reads back

* `decimalPlace num den` : the `k` with `10 ^ (k - 1) ≤ num / den < 10 ^ k`;
* `shortest m e` : digits `ds` and exponent `k` such that `ds · 10 ^ k` rounds to `m · 2 ^ e`, with
  the fewest digits, and of those the nearest.
-/

namespace LoanLedger.Binary64

def reachesPlace (num den : Nat) (k : Int) : Bool :=
  if 0 ≤ k then den * Nat.pow 10 k.toNat ≤ num else den ≤ num * Nat.pow 10 (-k).toNat

/-- The number of digits in front of the point, for a positive fraction: an estimate from the
binary logarithm, corrected by at most one each way. -/
def decimalPlace (num den : Nat) : Int :=
  let guess : Int := log2Ratio num den * 30103 / 100000
  if reachesPlace num den (guess + 1) then guess + 2
  else if reachesPlace num den guess then guess + 1
  else guess

/-- The decimals of unit `10 ^ k` next to `num / den`: the one below, and whether that is exact. -/
def gridBelow (num den : Nat) (k : Int) : Nat × Nat × Nat :=
  let (a, b) := if 0 ≤ k then (num, den * Nat.pow 10 k.toNat) else (num * Nat.pow 10 (-k).toNat, den)
  (a / b, a % b, b)

/-- Whether the decimal `ds · 10 ^ k` lies between `lo / den` and `hi / den`, the ends included when
`closed`. -/
def within (lo hi den : Nat) (closed : Bool) (ds : Nat) (k : Int) : Bool :=
  let (a, b) := if 0 ≤ k then (ds * Nat.pow 10 k.toNat * den, 1) else (ds * den, Nat.pow 10 (-k).toNat)
  if closed then lo * b ≤ a && a ≤ hi * b else lo * b < a && a < hi * b

/-- The hit on the grid of unit `10 ^ k`, of two the nearer one, of two as near the even one. -/
def gridHit? (num lo hi den : Nat) (closed : Bool) (k : Int) : Option Nat :=
  let (below, rest, unit) := gridBelow num den k
  match within lo hi den closed below k, within lo hi den closed (below + 1) k with
  | false, false => none
  | true, false => some below
  | false, true => some (below + 1)
  | true, true =>
    if 2 * rest < unit then some below
    else if unit < 2 * rest then some (below + 1)
    else some (below + below % 2)

/-- Tries grids of ever more digits. -/
def searchGrid (num lo hi den : Nat) (closed : Bool) (place : Int) : Nat → Nat → Nat × Int
  | 0, n => ((gridBelow num den (place - n)).1, place - n)
  | fuel + 1, n =>
    match gridHit? num lo hi den closed (place - n) with
    | some ds => (ds, place - n)
    | none => searchGrid num lo hi den closed place fuel (n + 1)

/-- The shortest decimal of `m · 2 ^ e`, for `m ≠ 0`. The numbers that round to it reach half a unit
up and down, and only a quarter down from a power of two above the least exponent. Seventeen digits
always suffice. -/
def shortest (m : Nat) (e : Int) : Nat × Int :=
  let up : Nat := if 0 ≤ e then Nat.pow 2 e.toNat else 1
  let den : Nat := 4 * if 0 ≤ e then 1 else Nat.pow 2 (-e).toNat
  let num := 4 * m * up
  let hi := num + 2 * up
  let lo := num - if m = Nat.pow 2 52 && -1074 < e then up else 2 * up
  searchGrid num lo hi den (m % 2 = 0) (decimalPlace num den) 17 1

end LoanLedger.Binary64
