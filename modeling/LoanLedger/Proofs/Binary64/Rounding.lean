import Mathlib.Algebra.Group.Nat.Defs
import LoanLedger.Binary64.Shortest

/-!
# What rounds to a number

* `IsNumber x` : the mantissa and the exponent of `x` are those of a number of the format;
* `RoundsTo ds k m e` : the decimal `ds · 10 ^ k` rounds to `m · 2 ^ e`: it lies in reach of it, which is half a
  unit up and down, and a quarter down from a power of two above the least exponent; at the ends only even mantissas
  are reached;
* `RoundsTo.unique` : a decimal rounds to one number only;
* `roundsTo_shift` : zeros at the end of the digits may be counted into the exponent.
-/

namespace LoanLedger.Binary64

/-! ## Numbers of the format -/

/-- Mantissa and exponent of a finite number of the format. -/
structure IsScaled (m : Nat) (e : Int) : Prop where
  lt : m < Nat.pow 2 53
  least : -1074 ≤ e
  most : e ≤ 971
  full : -1074 < e → Nat.pow 2 52 ≤ m

def IsNumber : Binary64 → Prop
  | finite _ m e => IsScaled m e
  | _ => True

/-! ## Powers -/

/-- A power with any exponent as a fraction of two powers. -/
theorem pow_shift (c : Nat) {i j : Int} (h : i ≤ j) :
    c ^ j.toNat * c ^ (-i).toNat = c ^ (j - i).toNat * (c ^ i.toNat * c ^ (-j).toNat) := by
  rw [← Nat.pow_add, ← Nat.pow_add, ← Nat.pow_add]
  congr 1
  omega

/-! ## Rounding -/

/-- How many quarters of a unit down decimals round to the number. -/
def reach (m : Nat) (e : Int) : Nat := if m = Nat.pow 2 52 ∧ -1074 < e then 1 else 2

theorem reach_pos (m : Nat) (e : Int) : 1 ≤ reach m e := by
  unfold reach
  split <;> omega

theorem reach_le (m : Nat) (e : Int) : reach m e ≤ 2 := by
  unfold reach
  split <;> omega

/-- The decimal `ds · 10 ^ k` rounds to `m · 2 ^ e`. -/
structure RoundsTo (ds : Nat) (k : Int) (m : Nat) (e : Int) : Prop where
  low : (4 * m - reach m e) * 2 ^ e.toNat * 10 ^ (-k).toNat ≤ 4 * ds * 10 ^ k.toNat * 2 ^ (-e).toNat
  high : 4 * ds * 10 ^ k.toNat * 2 ^ (-e).toNat ≤ (4 * m + 2) * 2 ^ e.toNat * 10 ^ (-k).toNat
  inside : m % 2 = 1 →
    (4 * m - reach m e) * 2 ^ e.toNat * 10 ^ (-k).toNat < 4 * ds * 10 ^ k.toNat * 2 ^ (-e).toNat ∧
      4 * ds * 10 ^ k.toNat * 2 ^ (-e).toNat < (4 * m + 2) * 2 ^ e.toNat * 10 ^ (-k).toNat

variable {ds m m' : Nat} {k e e' : Int}

/-- Of two numbers to which a decimal rounds, the lower end of the one with the greater exponent is not above the upper
end of the other, and is below it where an end is not reached. -/
theorem RoundsTo.ends (h : RoundsTo ds k m e) (h' : RoundsTo ds k m' e') (he : e ≤ e') :
    (4 * m' - reach m' e') * 2 ^ (e' - e).toNat ≤ 4 * m + 2 ∧
      (m % 2 = 1 ∨ m' % 2 = 1 → (4 * m' - reach m' e') * 2 ^ (e' - e).toNat < 4 * m + 2) := by
  have units := pow_shift 2 he
  have common : 0 < 2 ^ e.toNat * 2 ^ (-e').toNat * 10 ^ (-k).toNat :=
    Nat.mul_pos (Nat.mul_pos (Nat.pow_pos (by decide)) (Nat.pow_pos (by decide))) (Nat.pow_pos (by decide))
  have below : 0 < 2 ^ (-e).toNat := Nat.pow_pos (by decide)
  have below' : 0 < 2 ^ (-e').toNat := Nat.pow_pos (by decide)
  obtain ⟨low, -, inside'⟩ := h'
  obtain ⟨-, high, inside⟩ := h
  generalize 2 ^ e.toNat = u, 2 ^ e'.toNat = u', 2 ^ (-e).toNat = d, 2 ^ (-e').toNat = d', 10 ^ (-k).toNat = t,
    4 * ds * 10 ^ k.toNat = x, 2 ^ (e' - e).toNat = j, 4 * m' - reach m' e' = a, 4 * m + 2 = b at *
  -- both ends over one denominator
  have left : a * j * (u * d' * t) = a * u' * t * d := by
    calc a * j * (u * d' * t) = a * (j * (u * d')) * t := by ac_rfl
      _ = a * (u' * d) * t := by rw [units]
      _ = a * u' * t * d := by ac_rfl
  have right : b * (u * d' * t) = b * u * t * d' := by ac_rfl
  have middle : x * d' * d = x * d * d' := by ac_rfl
  refine ⟨Nat.le_of_mul_le_mul_right ?_ common, fun odd => Nat.lt_of_mul_lt_mul_right (a := u * d' * t) ?_⟩
  · calc a * j * (u * d' * t) = a * u' * t * d := left
      _ ≤ x * d' * d := Nat.mul_le_mul_right d low
      _ = x * d * d' := middle
      _ ≤ b * u * t * d' := Nat.mul_le_mul_right d' high
      _ = b * (u * d' * t) := right.symm
  · rw [left, right]
    rcases odd with odd | odd
    · calc a * u' * t * d ≤ x * d' * d := Nat.mul_le_mul_right d low
        _ = x * d * d' := middle
        _ < b * u * t * d' := Nat.mul_lt_mul_of_pos_right (inside odd).2 below'
    · calc a * u' * t * d < x * d' * d := Nat.mul_lt_mul_of_pos_right (inside' odd).1 below
        _ = x * d * d' := middle
        _ ≤ b * u * t * d' := Nat.mul_le_mul_right d' high

/-- No decimal rounds to two numbers, of which one has the greater exponent. -/
theorem RoundsTo.not_of_exponent (h : IsScaled m e) (full : 4503599627370496 ≤ m') (hr : RoundsTo ds k m e)
    (hr' : RoundsTo ds k m' e') (he : e < e') : False := by
  obtain ⟨le, lt⟩ := hr.ends hr' (Int.le_of_lt he)
  have small : m < 9007199254740992 := h.lt
  obtain ⟨n, hn⟩ : ∃ n, (e' - e).toNat = n + 1 := ⟨(e' - e).toNat - 1, by omega⟩
  have units : 2 ≤ 2 ^ (e' - e).toNat := by
    have := Nat.pow_pos (n := n) (show 0 < 2 by decide)
    rw [hn, Nat.pow_succ]
    omega
  -- the lower end is that of a power of two at least, a quarter of a unit below it
  have lower : 18014398509481983 ≤ 4 * m' - reach m' e' := by
    unfold reach
    split
    · omega
    · next hm =>
      have : m' ≠ 4503599627370496 := fun hp => hm ⟨hp, Int.lt_of_le_of_lt h.least he⟩
      omega
  have twice := Nat.mul_le_mul_left (4 * m' - reach m' e') units
  -- the upper end does not come so far, but for the last mantissa, which is odd
  rcases Nat.lt_or_ge m 9007199254740991 with hm | hm
  · omega
  · have odd : m % 2 = 1 := by omega
    have := lt (.inl odd)
    omega

/-- No decimal rounds to two numbers with the same exponent. -/
theorem RoundsTo.not_of_mantissa (hr : RoundsTo ds k m e) (hr' : RoundsTo ds k m' e) (hm : m < m') : False := by
  obtain ⟨le, lt⟩ := hr.ends hr' (Int.le_refl e)
  rw [Int.sub_self, Int.toNat_zero, Nat.pow_zero, Nat.mul_one] at le lt
  have most := reach_le m' e
  -- so they are neighbours, of which one is odd
  have odd : m % 2 = 1 ∨ m' % 2 = 1 := by omega
  have := lt odd
  omega

theorem RoundsTo.unique (h : IsScaled m e) (h' : IsScaled m' e') (hr : RoundsTo ds k m e) (hr' : RoundsTo ds k m' e') :
    m = m' ∧ e = e' := by
  rcases Int.lt_trichotomy e e' with he | rfl | he
  · exact (hr.not_of_exponent h (h'.full (Int.lt_of_le_of_lt h.least he)) hr' he).elim
  · rcases Nat.lt_trichotomy m m' with hm | rfl | hm
    · exact (hr.not_of_mantissa hr' hm).elim
    · exact ⟨rfl, rfl⟩
    · exact (hr'.not_of_mantissa hr hm).elim
  · exact (hr'.not_of_exponent h' (h.full (Int.lt_of_le_of_lt h'.least he)) hr he).elim

/-! ## Zeros at the end -/

theorem roundsTo_of_scale {ds' : Nat} {k' : Int} {c : Nat} (hc : 0 < c)
    (hx : ds * 10 ^ k.toNat = c * (ds' * 10 ^ k'.toNat))
    (ht : 10 ^ (-k).toNat = c * 10 ^ (-k').toNat) : RoundsTo ds k m e ↔ RoundsTo ds' k' m e := by
  have value (y : Nat) : 4 * ds * 10 ^ k.toNat * y = c * (4 * ds' * 10 ^ k'.toNat * y) := by
    rw [Nat.mul_assoc 4, hx]
    ac_rfl
  have ends (a : Nat) : a * 10 ^ (-k).toNat = c * (a * 10 ^ (-k').toNat) := by
    rw [ht]
    ac_rfl
  constructor
  · rintro ⟨low, high, inside⟩
    rw [value, ends, ends, Nat.mul_lt_mul_left hc, Nat.mul_lt_mul_left hc] at inside
    rw [value, ends] at low high
    exact ⟨Nat.le_of_mul_le_mul_left low hc, Nat.le_of_mul_le_mul_left high hc, inside⟩
  · rintro ⟨low, high, inside⟩
    refine ⟨?_, ?_, ?_⟩
    · rw [value, ends]
      exact Nat.mul_le_mul_left c low
    · rw [value, ends]
      exact Nat.mul_le_mul_left c high
    · rw [value, ends, ends, Nat.mul_lt_mul_left hc, Nat.mul_lt_mul_left hc]
      exact inside

/-- A zero at the end of the digits may be counted into the exponent. -/
theorem roundsTo_ten : RoundsTo (10 * ds) k m e ↔ RoundsTo ds (k + 1) m e := by
  by_cases hk : k < 0
  · have below : (-k).toNat = (-(k + 1)).toNat + 1 := by omega
    refine roundsTo_of_scale (c := 10) (by decide) ?_ ?_
    · rw [show k.toNat = 0 by omega, show (k + 1).toNat = 0 by omega, Nat.mul_assoc]
    · rw [below, Nat.pow_succ, Nat.mul_comm]
  · refine roundsTo_of_scale (c := 1) (by decide) ?_ ?_
    · rw [show (k + 1).toNat = k.toNat + 1 by omega, Nat.pow_succ]
      ac_rfl
    · rw [show (-k).toNat = 0 by omega, show (-(k + 1)).toNat = 0 by omega, Nat.one_mul]

theorem roundsTo_shift (n : Nat) : RoundsTo (ds * 10 ^ n) (k - n) m e ↔ RoundsTo ds k m e := by
  induction n generalizing k with
  | zero => simp
  | succ n ih =>
    rw [Nat.pow_succ, ← Nat.mul_assoc, Nat.mul_comm _ 10, roundsTo_ten,
      show k - (n + 1 : Nat) + 1 = k - n by omega, ih]

end LoanLedger.Binary64
