import LoanLedger.Binary64.Basic
import LoanLedger.Binary64.Text
import LoanLedger.Proofs.Binary64.Shortest

/-!
# What is rounded is a number of the format

* `lt_log2Ratio` : a fraction is below the power of two behind its binary logarithm;
* `shift_lt_iff`, `shift_le_iff` : a power of two may be moved out of the unit of a fraction;
* `exists_ofRatio` : the quotient of a fraction is rounded to a number that it is near to, or is too great;
* `ofRatio_isNumber` : so it has the digits that the format wants;
* `add_isNumber`, `mul_isNumber`, `read?_isNumber` : sums, products and what is read are numbers of the format.
-/

namespace LoanLedger.Binary64

variable {num den a b x y n : Nat} {k : Int}

/-! ## The binary logarithm -/

theorem shift_mul (y n : Nat) (k : Int) :
    y * 2 ^ (k + n).toNat * 2 ^ (-k).toNat = 2 ^ n * (y * 2 ^ k.toNat) * 2 ^ (-(k + n)).toNat := by
  have move := pow_shift 2 (i := k) (j := k + n) (by omega)
  rw [show (k + n - k).toNat = n by omega] at move
  calc y * 2 ^ (k + n).toNat * 2 ^ (-k).toNat = y * (2 ^ n * (2 ^ k.toNat * 2 ^ (-(k + n)).toNat)) := by
        rw [Nat.mul_assoc, move]
    _ = 2 ^ n * (y * 2 ^ k.toNat) * 2 ^ (-(k + n)).toNat := by simp only [Nat.mul_assoc, Nat.mul_left_comm]

theorem shift_lt_iff :
    x * 2 ^ (-(k + n)).toNat < y * 2 ^ (k + n).toNat ↔ x * 2 ^ (-k).toNat < 2 ^ n * (y * 2 ^ k.toNat) := by
  have before : 0 < 2 ^ (-k).toNat := Nat.pow_pos (by decide)
  have behind : 0 < 2 ^ (-(k + n)).toNat := Nat.pow_pos (by decide)
  rw [← Nat.mul_lt_mul_right before, shift_mul, Nat.mul_right_comm, Nat.mul_lt_mul_right behind]

theorem shift_le_iff :
    x * 2 ^ (k + n).toNat ≤ y * 2 ^ (-(k + n)).toNat ↔ 2 ^ n * (x * 2 ^ k.toNat) ≤ y * 2 ^ (-k).toNat := by
  have before : 0 < 2 ^ (-k).toNat := Nat.pow_pos (by decide)
  have behind : 0 < 2 ^ (-(k + n)).toNat := Nat.pow_pos (by decide)
  rw [← Nat.mul_le_mul_right_iff before, shift_mul, Nat.mul_right_comm y, Nat.mul_le_mul_right_iff behind]

/-- What is below one power of two is below a greater one. -/
theorem lt_of_shift {i j : Int} (hij : i ≤ j) (h : x * 2 ^ (-i).toNat < y * 2 ^ i.toNat) :
    x * 2 ^ (-j).toNat < y * 2 ^ j.toNat := by
  obtain ⟨n, rfl⟩ := Int.le.dest hij
  exact shift_lt_iff.mpr (Nat.lt_of_lt_of_le h (Nat.le_mul_of_pos_left _ (Nat.pow_pos (by decide))))

/-- A fraction is below the power of two behind its binary logarithm. -/
theorem lt_log2Ratio (hd : 0 < den) :
    num * 2 ^ (-(log2Ratio num den + 1)).toNat < den * 2 ^ (log2Ratio num den + 1).toNat := by
  unfold log2Ratio
  dsimp only
  generalize hk : (num.log2 : Int) - den.log2 = k
  have least : 2 ^ den.log2 ≤ den := Nat.log2_self_le (by omega)
  have most : num < 2 ^ (num.log2 + 1) := Nat.lt_log2_self
  have above : num * 2 ^ (-(k + 1)).toNat < den * 2 ^ (k + 1).toNat := by
    calc num * 2 ^ (-(k + 1)).toNat < 2 ^ (num.log2 + 1) * 2 ^ (-(k + 1)).toNat :=
          Nat.mul_lt_mul_of_pos_right most (Nat.pow_pos (by decide))
      _ = 2 ^ den.log2 * 2 ^ (k + 1).toNat := by
        rw [← Nat.pow_add, ← Nat.pow_add]
        congr 1
        omega
      _ ≤ den * 2 ^ (k + 1).toNat := Nat.mul_le_mul_right _ least
  by_cases h0 : 0 ≤ k
  · rw [if_pos h0]
    split
    · exact above
    · next missed => simpa [show (-k).toNat = 0 by omega] using missed
  · rw [if_neg h0]
    split
    · exact above
    · next missed => simpa [show k.toNat = 0 by omega] using missed

/-! ## Rounding -/

theorem roundDiv_bounds (a b : Nat) : a / b ≤ roundDiv a b ∧ roundDiv a b ≤ a / b + 1 := by
  unfold roundDiv
  dsimp only
  split
  · omega
  · split
    · omega
    · omega

theorem roundDiv_le (hb : 0 < b) (h : a < n * b) : roundDiv a b ≤ n := by
  have below : a / b < n := (Nat.div_lt_iff_lt_mul hb).mpr h
  have := (roundDiv_bounds a b).2
  omega

theorem le_roundDiv (hb : 0 < b) (h : n * b ≤ a) : n ≤ roundDiv a b :=
  Nat.le_trans ((Nat.le_div_iff_mul_le hb).mpr h) (roundDiv_bounds a b).1

/-- The quotient of a fraction by a power of two is rounded as a quotient of whole numbers. -/
theorem roundDiv_scaled (num den : Nat) (q : Int) :
    (if 0 ≤ q then roundDiv num (den * Nat.pow 2 q.toNat) else roundDiv (num * Nat.pow 2 (-q).toNat) den) =
      roundDiv (num * 2 ^ (-q).toNat) (den * 2 ^ q.toNat) := by
  split
  · next h => rw [show (-q).toNat = 0 by omega, Nat.pow_zero, Nat.mul_one]; rfl
  · next h => rw [show q.toNat = 0 by omega, Nat.pow_zero, Nat.mul_one]; rfl

theorem zero_isNumber (neg : Bool) : (finite neg 0 (-1074)).IsNumber :=
  ⟨by decide, by decide, by decide, fun h => absurd h (by decide)⟩

/-- A rounded quotient is half a unit from the quotient at most, and less where it is odd. -/
theorem roundDiv_near (a : Nat) (hb : 0 < b) :
    (4 * roundDiv a b - 2) * b ≤ 4 * a ∧ 4 * a ≤ (4 * roundDiv a b + 2) * b ∧
      (roundDiv a b % 2 = 1 → (4 * roundDiv a b - 2) * b < 4 * a ∧ 4 * a < (4 * roundDiv a b + 2) * b) := by
  have whole := Nat.div_add_mod' a b
  have rest := Nat.mod_lt a hb
  have up (n : Nat) : (4 * n + 2) * b = 4 * (n * b) + 2 * b := by rw [Nat.add_mul, Nat.mul_assoc]
  have down (n : Nat) : (4 * n - 2) * b = 4 * (n * b) - 2 * b := by rw [Nat.sub_mul, Nat.mul_assoc]
  have next : (a / b + 1) * b = a / b * b + b := Nat.succ_mul (a / b) b
  have some_unit (h : 0 < a / b) := Nat.le_mul_of_pos_left b h
  unfold roundDiv
  dsimp only
  simp only [up, down]
  generalize a / b = q, a % b = r at *
  split
  · omega
  · split
    · omega
    · -- halfway, so the even neighbour is taken
      rcases Nat.mod_two_eq_zero_or_one q with even | odd
      · rw [even, Nat.add_zero]
        omega
      · rw [odd]
        omega

/-- The fraction rounds to `m · 2 ^ e`. -/
structure Nears (num den m : Nat) (e : Int) : Prop where
  low : (4 * m - reach m e) * (den * 2 ^ e.toNat) ≤ 4 * (num * 2 ^ (-e).toNat)
  high : 4 * (num * 2 ^ (-e).toNat) ≤ (4 * m + 2) * (den * 2 ^ e.toNat)
  inside : m % 2 = 1 → (4 * m - reach m e) * (den * 2 ^ e.toNat) < 4 * (num * 2 ^ (-e).toNat) ∧
    4 * (num * 2 ^ (-e).toNat) < (4 * m + 2) * (den * 2 ^ e.toNat)

/-- What is rounded to a power of two comes from no more than a quarter of a unit below it. -/
theorem nears_roundDiv {q : Int} (hd : 0 < den)
    (full : -1074 < q → Nat.pow 2 52 * (den * 2 ^ q.toNat) ≤ num * 2 ^ (-q).toNat) :
    Nears num den (roundDiv (num * 2 ^ (-q).toNat) (den * 2 ^ q.toNat)) q := by
  have unit : 0 < den * 2 ^ q.toNat := Nat.mul_pos hd (Nat.pow_pos (by decide))
  obtain ⟨low, high, inside⟩ := roundDiv_near (num * 2 ^ (-q).toNat) unit
  generalize roundDiv (num * 2 ^ (-q).toNat) (den * 2 ^ q.toNat) = m at low high inside
  by_cases hm : m = Nat.pow 2 52 ∧ -1074 < q
  · have even : ¬m % 2 = 1 := by
      rw [hm.1]
      decide
    have reached : reach m q = 1 := if_pos hm
    refine ⟨?_, high, fun odd => absurd odd even⟩
    have := full hm.2
    rw [hm.1] at reached ⊢
    rw [reached, Nat.sub_mul, Nat.mul_assoc]
    omega
  · have reached : reach m q = 2 := if_neg hm
    exact ⟨by rw [reached]; exact low, high, by rw [reached]; exact inside⟩

/-- What is rounded to the next power of two rounds to it with the next exponent as well. -/
theorem Nears.carry {q : Int} (hd : 0 < den) (hq : -1074 ≤ q) (h : Nears num den (Nat.pow 2 53) q) :
    Nears num den (Nat.pow 2 52) (q + 1) := by
  have unit : 0 < den * 2 ^ q.toNat := Nat.mul_pos hd (Nat.pow_pos (by decide))
  have reached : reach (Nat.pow 2 52) (q + 1) = 1 := if_pos ⟨rfl, by omega⟩
  have reached' : reach (Nat.pow 2 53) q = 2 := if_neg fun h => absurd h.1 (by decide)
  have even : ¬Nat.pow 2 52 % 2 = 1 := by decide
  obtain ⟨low, high, -⟩ := h
  rw [reached'] at low
  refine ⟨?_, Nat.le_of_lt ?_, fun odd => absurd odd even⟩
  · rw [reached, ← Nat.mul_assoc, ← Nat.mul_assoc]
    refine (shift_le_iff (n := 1)).mpr ?_
    rw [Nat.mul_assoc, Nat.mul_assoc]
    generalize den * 2 ^ q.toNat = b, num * 2 ^ (-q).toNat = a at *
    change (4 * 9007199254740992 - 2) * b ≤ 4 * a at low
    change 2 ^ 1 * ((4 * 4503599627370496 - 1) * b) ≤ 4 * a
    omega
  · rw [← Nat.mul_assoc, ← Nat.mul_assoc]
    refine (shift_lt_iff (n := 1)).mpr ?_
    rw [Nat.mul_assoc, Nat.mul_assoc]
    generalize den * 2 ^ q.toNat = b, num * 2 ^ (-q).toNat = a at *
    change 4 * a ≤ (4 * 9007199254740992 + 2) * b at high
    change 4 * a < 2 ^ 1 * ((4 * 4503599627370496 + 2) * b)
    omega

/-- The nearest number to a fraction, unless it is an infinity. -/
theorem exists_ofRatio (neg : Bool) (hn : num ≠ 0) (hd : 0 < den) : ∃ m q, m < Nat.pow 2 53 ∧ -1074 ≤ q ∧
    (-1074 < q → Nat.pow 2 52 ≤ m) ∧ Nears num den m q ∧
    ofRatio neg num den = if 971 < q then infinity neg else finite neg m q := by
  unfold ofRatio
  rw [if_neg hn]
  dsimp only
  rw [roundDiv_scaled]
  generalize hq : max (log2Ratio num den - 52) (-1074) = q
  have unit : 0 < den * 2 ^ q.toNat := Nat.mul_pos hd (Nat.pow_pos (by decide))
  have full (h : -1074 < q) : Nat.pow 2 52 * (den * 2 ^ q.toNat) ≤ num * 2 ^ (-q).toNat := by
    refine shift_le_iff.mp ?_
    rw [show q + (52 : Nat) = log2Ratio num den by omega]
    exact log2Ratio_le den (by omega)
  have near := nears_roundDiv hd full
  have most : roundDiv (num * 2 ^ (-q).toNat) (den * 2 ^ q.toNat) ≤ Nat.pow 2 53 :=
    roundDiv_le unit (shift_lt_iff.mp (lt_of_shift (by omega) (lt_log2Ratio hd)))
  have least (h : -1074 < q) := le_roundDiv unit (full h)
  generalize roundDiv (num * 2 ^ (-q).toNat) (den * 2 ^ q.toNat) = m at near most least
  by_cases hm : m = Nat.pow 2 53
  · -- rounding up reached the next power of two
    subst hm
    have below : Nat.pow 2 52 < Nat.pow 2 53 := Nat.pow_lt_pow_right (by decide) (by decide)
    exact ⟨_, q + 1, below, by omega, fun _ => Nat.le_refl _, near.carry hd (by omega), by rw [if_pos rfl]⟩
  · exact ⟨m, q, Nat.lt_of_le_of_ne most hm, by omega, least, near, by rw [if_neg hm]⟩

theorem ofRatio_isNumber (neg : Bool) (num : Nat) (hd : 0 < den) : (ofRatio neg num den).IsNumber := by
  by_cases hn : num = 0
  · rw [ofRatio, if_pos hn]
    exact zero_isNumber neg
  · obtain ⟨m, q, lt, least, full, -, h⟩ := exists_ofRatio neg hn hd
    rw [h]
    split
    · trivial
    · next hq => exact ⟨lt, least, by omega, full⟩

/-! ## Sums, products and texts -/

theorem toRatio?_pos {z : Binary64} {r : Int × Nat} (h : z.toRatio? = some r) : 0 < r.2 := by
  unfold toRatio? at h
  split at h
  · cases h
    dsimp only
    split
    · decide
    · exact Nat.pow_pos (by decide)
  · cases h

theorem add_isNumber {z w : Binary64} (hz : z.IsNumber) (hw : w.IsNumber) : (z.add w).IsNumber := by
  unfold add
  split
  · next h h' => exact ofRatio_isNumber _ _ (Nat.mul_pos (toRatio?_pos h) (toRatio?_pos h'))
  · exact hw
  · exact hz
  · split
    · exact hz
    · trivial

theorem mul_isNumber (z w : Binary64) : (z.mul w).IsNumber := by
  unfold mul
  dsimp only
  split
  · next h h' => exact ofRatio_isNumber _ _ (Nat.mul_pos (toRatio?_pos h) (toRatio?_pos h'))
  · split <;> trivial

theorem negate_isNumber {z : Binary64} (hz : z.IsNumber) : z.negate.IsNumber := by
  cases z with
  | nan | infinity => trivial
  | finite neg m e => exact hz

theorem ofDecimal_isNumber (neg : Bool) (ds width : Nat) (e : Int) : (ofDecimal neg ds width e).IsNumber := by
  unfold ofDecimal
  split
  · exact zero_isNumber neg
  · split
    · trivial
    · split
      · exact zero_isNumber neg
      · split
        · exact ofRatio_isNumber _ _ (by decide)
        · exact ofRatio_isNumber _ _ (Nat.pow_pos (by decide))

theorem readDecimal?_isNumber {neg : Bool} {cs : List Char} {z : Binary64} (h : readDecimal? neg cs = some z) :
    z.IsNumber := by
  unfold readDecimal? at h
  dsimp only at h
  -- with a point and without one
  split at h
  all_goals
    split at h
    · cases h
    · obtain ⟨e, -, h⟩ := Option.bind_eq_some_iff.mp h
      cases h
      exact ofDecimal_isNumber ..

theorem readUnsigned?_isNumber {neg : Bool} {cs : List Char} {z : Binary64} (h : readUnsigned? neg cs = some z) :
    z.IsNumber := by
  unfold readUnsigned? at h
  dsimp only at h
  split at h
  · cases h
    trivial
  · split at h
    · cases h
      trivial
    · exact readDecimal?_isNumber h

theorem read?_isNumber {s : String} {z : Binary64} (h : read? s = some z) : z.IsNumber := by
  unfold read? at h
  obtain ⟨cs, -, h⟩ := Option.bind_eq_some_iff.mp h
  exact readUnsigned?_isNumber h

end LoanLedger.Binary64
