import LoanLedger.Proofs.Binary64.Rounding

/-!
# The shortest decimal rounds to its number

* `log2Ratio_le` : the binary logarithm of a fraction is not above it;
* `reachesPlace_decimalPlace` : a fraction has the digits in front of the point that are estimated for it;
* `roundsTo_of_within` : what is within reach rounds to the number; `roundsTo_gridBelow` : on a grid of eighteen
  digits so does what is next to the number;
* `roundsTo_shortest` : so the shortest decimal of a number rounds to it.
-/

namespace LoanLedger.Binary64

variable {num den m ds : Nat} {e k : Int}

/-! ## Places -/

/-- The binary logarithm of a fraction is not above it. -/
theorem log2Ratio_le (den : Nat) (hn : 0 < num) :
    den * 2 ^ (log2Ratio num den).toNat ≤ num * 2 ^ (-log2Ratio num den).toNat := by
  unfold log2Ratio
  dsimp only
  generalize hk : (num.log2 : Int) - den.log2 = k
  -- one less than the difference of the logarithms is not above the fraction in any case
  have least : 2 ^ num.log2 ≤ num := Nat.log2_self_le (by omega)
  have most : den ≤ 2 ^ (den.log2 + 1) := Nat.le_of_lt Nat.lt_log2_self
  have below : den * 2 ^ (k - 1).toNat ≤ num * 2 ^ (-(k - 1)).toNat := by
    calc den * 2 ^ (k - 1).toNat ≤ 2 ^ (den.log2 + 1) * 2 ^ (k - 1).toNat := Nat.mul_le_mul_right _ most
      _ = 2 ^ num.log2 * 2 ^ (-(k - 1)).toNat := by
        rw [← Nat.pow_add, ← Nat.pow_add]
        congr 1
        omega
      _ ≤ num * 2 ^ (-(k - 1)).toNat := Nat.mul_le_mul_right _ least
  by_cases h0 : 0 ≤ k
  · rw [if_pos h0]
    split
    · next reached => simpa [show (-k).toNat = 0 by omega] using reached
    · exact below
  · rw [if_neg h0]
    split
    · next reached => simpa [show k.toNat = 0 by omega] using reached
    · exact below

theorem log2Ratio_bounds (num den : Nat) :
    (num.log2 : Int) - den.log2 - 1 ≤ log2Ratio num den ∧ log2Ratio num den ≤ (num.log2 : Int) - den.log2 := by
  unfold log2Ratio
  dsimp only
  split <;> omega

/-- Whether a power of ten is not above a fraction. -/
theorem reachesPlace_iff : reachesPlace num den k = true ↔ den * 10 ^ k.toNat ≤ num * 10 ^ (-k).toNat := by
  unfold reachesPlace
  split
  · next h0 => simp [show (-k).toNat = 0 by omega]
  · next h0 => simp [show k.toNat = 0 by omega]

/-- The place that is estimated from a binary logarithm. -/
def placeOf (l : Int) : Int := l * 30103 / 100000

/-- For the logarithms of numbers of the format, the estimate is too great by one place at most. -/
theorem ten_pow_placeOf : ∀ l ∈ List.range 2200,
    10 ^ (placeOf ((l : Int) - 1100) - 1).toNat * 2 ^ (-((l : Int) - 1100)).toNat ≤
      2 ^ ((l : Int) - 1100).toNat * 10 ^ (-(placeOf ((l : Int) - 1100) - 1)).toNat := by
  decide +kernel

theorem reachesPlace_decimalPlace (den : Nat) (hn : 0 < num) (least : -1100 ≤ log2Ratio num den)
    (most : log2Ratio num den < 1100) :
    reachesPlace num den (decimalPlace num den - 1) = true := by
  have logarithm := log2Ratio_le den hn
  unfold decimalPlace
  dsimp only
  generalize log2Ratio num den = l at *
  split
  · next reached => rwa [show l * 30103 / 100000 + 2 - 1 = l * 30103 / 100000 + 1 by omega]
  split
  · next reached => rwa [show l * 30103 / 100000 + 1 - 1 = l * 30103 / 100000 by omega]
  -- a power of ten below the power of two
  have powers := ten_pow_placeOf (l + 1100).toNat (List.mem_range.mpr (by omega))
  rw [show ((l + 1100).toNat : Int) - 1100 = l by omega, placeOf] at powers
  rw [reachesPlace_iff]
  generalize l * 30103 / 100000 - 1 = k at *
  have positive : 0 < 2 ^ (-l).toNat := Nat.pow_pos (by decide)
  refine Nat.le_of_mul_le_mul_right ?_ positive
  calc den * 10 ^ k.toNat * 2 ^ (-l).toNat = den * (10 ^ k.toNat * 2 ^ (-l).toNat) := by ac_rfl
    _ ≤ den * (2 ^ l.toNat * 10 ^ (-k).toNat) := Nat.mul_le_mul_left den powers
    _ = den * 2 ^ l.toNat * 10 ^ (-k).toNat := by ac_rfl
    _ ≤ num * 2 ^ (-l).toNat * 10 ^ (-k).toNat := Nat.mul_le_mul_right _ logarithm
    _ = num * 10 ^ (-k).toNat * 2 ^ (-l).toNat := by ac_rfl

/-! ## Grids -/

variable {lo hi : Nat} {closed : Bool}

theorem within_ok (h : within lo hi den closed ds k = true) :
    lo * 10 ^ (-k).toNat ≤ ds * 10 ^ k.toNat * den ∧ ds * 10 ^ k.toNat * den ≤ hi * 10 ^ (-k).toNat ∧
      (closed = false → lo * 10 ^ (-k).toNat < ds * 10 ^ k.toNat * den ∧
        ds * 10 ^ k.toNat * den < hi * 10 ^ (-k).toNat) := by
  have fraction : (if 0 ≤ k then (ds * Nat.pow 10 k.toNat * den, 1) else (ds * den, Nat.pow 10 (-k).toNat)) =
      (ds * 10 ^ k.toNat * den, 10 ^ (-k).toNat) := by
    split
    · next h0 => rw [show (-k).toNat = 0 by omega]; rfl
    · next h0 => rw [show k.toNat = 0 by omega, Nat.pow_zero, Nat.mul_one]; rfl
  unfold within at h
  rw [fraction] at h
  dsimp only at h
  generalize ds * 10 ^ k.toNat * den = a at *
  generalize lo * 10 ^ (-k).toNat = l, hi * 10 ^ (-k).toNat = r at *
  cases closed <;> simp at h <;> simp <;> omega

/-- What is hit on a grid lies between the ends. -/
theorem within_of_gridHit? (h : gridHit? num lo hi den closed k = some ds) : within lo hi den closed ds k = true := by
  unfold gridHit? at h
  dsimp only at h
  generalize (gridBelow num den k).1 = below at *
  split at h
  · cases h
  · next hb _ =>
    cases h
    exact hb
  · next _ ha =>
    cases h
    exact ha
  · next hb ha =>
    split at h
    · cases h
      exact hb
    split at h
    · cases h
      exact ha
    · cases h
      rcases Nat.mod_two_eq_zero_or_one below with he | he
      · rwa [he]
      · rwa [he]

theorem roundsTo_of_within (h : within (4 * m * 2 ^ e.toNat - reach m e * 2 ^ e.toNat)
    (4 * m * 2 ^ e.toNat + 2 * 2 ^ e.toNat) (4 * 2 ^ (-e).toNat) (m % 2 = 0) ds k = true) : RoundsTo ds k m e := by
  obtain ⟨low, high, inside⟩ := within_ok h
  have value : 4 * ds * 10 ^ k.toNat * 2 ^ (-e).toNat = ds * 10 ^ k.toNat * (4 * 2 ^ (-e).toNat) := by ac_rfl
  rw [← Nat.sub_mul, ← value] at low inside
  rw [← Nat.add_mul] at high inside
  rw [← value] at high
  exact ⟨low, high, fun odd => inside (by simp [odd])⟩

theorem gridBelow_eq (num den : Nat) (k : Int) :
    (gridBelow num den k).1 = num * 10 ^ (-k).toNat / (den * 10 ^ k.toNat) := by
  unfold gridBelow
  by_cases h0 : 0 ≤ k
  · rw [if_pos h0, show (-k).toNat = 0 by omega, Nat.pow_zero, Nat.mul_one]
    rfl
  · rw [if_neg h0, show k.toNat = 0 by omega, Nat.pow_zero, Nat.mul_one]
    rfl

/-- The unit of a grid of eighteen digits is at most a quarter of a unit of the number. -/
theorem unit_le (hm : m < Nat.pow 2 53) (h : reachesPlace (4 * m * 2 ^ e.toNat) den (k + 17) = true) :
    den * 10 ^ k.toNat ≤ 2 ^ e.toNat * 10 ^ (-k).toNat := by
  have reached := reachesPlace_iff.mp h
  have powers := pow_shift 10 (show k ≤ k + 17 by omega)
  rw [show (k + 17 - k).toNat = 17 by omega] at powers
  have digits : 4 * m ≤ 10 ^ 17 := by
    have : m < 9007199254740992 := hm
    omega
  have positive : 0 < 10 ^ 17 * 10 ^ (-(k + 17)).toNat := Nat.mul_pos (by decide) (Nat.pow_pos (by decide))
  generalize 10 ^ k.toNat = t, 10 ^ (-k).toNat = b, 10 ^ (k + 17).toNat = t', 10 ^ (-(k + 17)).toNat = b',
    2 ^ e.toNat = u, 10 ^ 17 = c at *
  refine Nat.le_of_mul_le_mul_right ?_ positive
  calc den * t * (c * b') = den * (c * (t * b')) := by ac_rfl
    _ = den * (t' * b) := by rw [powers]
    _ = den * t' * b := by ac_rfl
    _ ≤ 4 * m * u * b' * b := Nat.mul_le_mul_right b reached
    _ = 4 * m * (u * b' * b) := by ac_rfl
    _ ≤ c * (u * b' * b) := Nat.mul_le_mul_right _ digits
    _ = u * b * (c * b') := by ac_rfl

/-- On a grid of eighteen digits the decimal below a number rounds to it. -/
theorem roundsTo_gridBelow (hm : m < Nat.pow 2 53) (h0 : 0 < m)
    (h : reachesPlace (4 * m * 2 ^ e.toNat) (4 * 2 ^ (-e).toNat) (k + 17) = true) :
    RoundsTo (gridBelow (4 * m * 2 ^ e.toNat) (4 * 2 ^ (-e).toNat) k).1 k m e := by
  have unit := unit_le hm h
  rw [gridBelow_eq]
  generalize hds : 4 * m * 2 ^ e.toNat * 10 ^ (-k).toNat / (4 * 2 ^ (-e).toNat * 10 ^ k.toNat) = ds
  have positive : 0 < 4 * 2 ^ (-e).toNat * 10 ^ k.toNat :=
    Nat.mul_pos (Nat.mul_pos (by decide) (Nat.pow_pos (by decide))) (Nat.pow_pos (by decide))
  have width : 0 < 2 ^ e.toNat * 10 ^ (-k).toNat := Nat.mul_pos (Nat.pow_pos (by decide)) (Nat.pow_pos (by decide))
  -- the number lies between this decimal of the grid and the next one
  obtain ⟨floor, ceiling⟩ := (Nat.div_eq_iff positive).mp hds
  have value : 4 * ds * 10 ^ k.toNat * 2 ^ (-e).toNat = ds * (4 * 2 ^ (-e).toNat * 10 ^ k.toNat) := by ac_rfl
  have quarter : (4 * m - reach m e) * (2 ^ e.toNat * 10 ^ (-k).toNat) + 2 ^ e.toNat * 10 ^ (-k).toNat ≤
      4 * m * (2 ^ e.toNat * 10 ^ (-k).toNat) := by
    have := reach_pos m e
    rw [← Nat.succ_mul]
    exact Nat.mul_le_mul_right _ (by omega)
  have above := Nat.add_mul (4 * m) 2 (2 ^ e.toNat * 10 ^ (-k).toNat)
  rw [Nat.mul_assoc (4 * m)] at floor ceiling
  have low : (4 * m - reach m e) * (2 ^ e.toNat * 10 ^ (-k).toNat) < ds * (4 * 2 ^ (-e).toNat * 10 ^ k.toNat) := by
    omega
  have high : ds * (4 * 2 ^ (-e).toNat * 10 ^ k.toNat) < (4 * m + 2) * (2 ^ e.toNat * 10 ^ (-k).toNat) := by omega
  rw [← value, ← Nat.mul_assoc] at low high
  exact ⟨Nat.le_of_lt low, Nat.le_of_lt high, fun _ => ⟨low, high⟩⟩

/-! ## The search -/

/-- The search ends with a decimal that rounds to the number. -/
theorem roundsTo_searchGrid {place : Int} (hm : m < Nat.pow 2 53) (h0 : 0 < m)
    (h : reachesPlace (4 * m * 2 ^ e.toNat) (4 * 2 ^ (-e).toNat) (place - 1) = true) :
    ∀ (fuel n : Nat), fuel + n = 18 → ∃ ds k, RoundsTo ds k m e ∧
      searchGrid (4 * m * 2 ^ e.toNat) (4 * m * 2 ^ e.toNat - reach m e * 2 ^ e.toNat)
        (4 * m * 2 ^ e.toNat + 2 * 2 ^ e.toNat) (4 * 2 ^ (-e).toNat) (m % 2 = 0) place fuel n = (ds, k) := by
  intro fuel
  induction fuel with
  | zero =>
    intro n hn
    refine ⟨_, _, roundsTo_gridBelow hm h0 ?_, rfl⟩
    rwa [show place - (n : Int) + 17 = place - 1 by omega]
  | succ fuel ih =>
    intro n hn
    rw [searchGrid]
    split
    · next ds hit => exact ⟨ds, _, roundsTo_of_within (within_of_gridHit? hit), rfl⟩
    · exact ih (n + 1) (by omega)

theorem shortest_eq (m : Nat) (e : Int) : shortest m e =
    searchGrid (4 * m * 2 ^ e.toNat) (4 * m * 2 ^ e.toNat - reach m e * 2 ^ e.toNat)
      (4 * m * 2 ^ e.toNat + 2 * 2 ^ e.toNat) (4 * 2 ^ (-e).toNat) (m % 2 = 0)
      (decimalPlace (4 * m * 2 ^ e.toNat) (4 * 2 ^ (-e).toNat)) 17 1 := by
  have units : (if 0 ≤ e then Nat.pow 2 e.toNat else 1) = 2 ^ e.toNat := by
    split
    · rfl
    · rw [show e.toNat = 0 by omega, Nat.pow_zero]
  have parts : (if 0 ≤ e then 1 else Nat.pow 2 (-e).toNat) = 2 ^ (-e).toNat := by
    split
    · rw [show (-e).toNat = 0 by omega, Nat.pow_zero]
    · rfl
  have quarters :
      (if m = Nat.pow 2 52 && -1074 < e then 2 ^ e.toNat else 2 * 2 ^ e.toNat) = reach m e * 2 ^ e.toNat := by
    unfold reach
    by_cases hp : m = Nat.pow 2 52 ∧ -1074 < e
    · rw [if_pos hp, if_pos (by simpa using hp), Nat.one_mul]
    · rw [if_neg hp, if_neg (by simpa using hp)]
  unfold shortest
  dsimp only
  rw [units, parts, quarters]

/-- The shortest decimal of a number rounds to it. -/
theorem roundsTo_shortest (h : IsScaled m e) (h0 : 0 < m) : RoundsTo (shortest m e).1 (shortest m e).2 m e := by
  obtain ⟨hm, least, most, -⟩ := h
  have positive : 0 < 4 * m * 2 ^ e.toNat := Nat.mul_pos (by omega) (Nat.pow_pos (by decide))
  obtain ⟨low, high⟩ := log2Ratio_bounds (4 * m * 2 ^ e.toNat) (4 * 2 ^ (-e).toNat)
  have den : (4 * 2 ^ (-e).toNat).log2 = 2 + (-e).toNat := by
    rw [show 4 * 2 ^ (-e).toNat = 2 ^ (2 + (-e).toNat) by rw [Nat.pow_add], Nat.log2_two_pow]
  have num : (4 * m * 2 ^ e.toNat).log2 < 55 + e.toNat := by
    rw [Nat.log2_lt (Nat.ne_of_gt positive), Nat.pow_add]
    refine Nat.mul_lt_mul_of_pos_right ?_ (Nat.pow_pos (by decide))
    have : m < 9007199254740992 := hm
    omega
  have place := reachesPlace_decimalPlace (4 * 2 ^ (-e).toNat) positive (by omega) (by omega)
  obtain ⟨ds, k, rounds, found⟩ := roundsTo_searchGrid hm h0 place 17 1 rfl
  rwa [shortest_eq, found]

end LoanLedger.Binary64
