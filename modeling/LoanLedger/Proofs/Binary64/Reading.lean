import LoanLedger.Proofs.Binary64.Format
import LoanLedger.Proofs.Binary64.Text
import Mathlib.Algebra.Order.Ring.Nat
import Mathlib.Data.List.TakeWhile

/-!
# The text of a number reads back

* `ofRatio_of_roundsTo`, `ofDecimal_of_roundsTo` : a decimal that rounds to a number is turned into that number;
* `readDecimal?_of_decimalOf?` : a decimal text is read as the decimal that it writes;
* `readDecimal?_unsigned` : so the text of a finite number, without its sign, reads back as that number.
-/

namespace LoanLedger

/-! ## Digits -/

namespace Numeral

theorem foldl_digits_lt {cs : List Char} (h : ∀ c ∈ cs, c.isDigit = true) (n : Nat) :
    cs.foldl (fun n c => 10 * n + (c.toNat - 0x30)) n < (n + 1) * 10 ^ cs.length := by
  induction cs generalizing n with
  | nil => simp
  | cons c cs ih =>
    obtain ⟨hc, hcs⟩ := List.forall_mem_cons.mp h
    have digit := toNat_le_of_isDigit hc
    calc cs.foldl _ (10 * n + (c.toNat - 0x30)) < (10 * n + (c.toNat - 0x30) + 1) * 10 ^ cs.length := ih hcs _
      _ ≤ ((n + 1) * 10) * 10 ^ cs.length := Nat.mul_le_mul_right _ (by omega)
      _ = (n + 1) * 10 ^ (cs.length + 1) := by rw [Nat.mul_assoc, Nat.pow_succ']

theorem digitsValue_lt {cs : List Char} (h : ∀ c ∈ cs, c.isDigit = true) : digitsValue cs < 10 ^ cs.length := by
  have below := foldl_digits_lt h 0
  rw [Nat.zero_add, Nat.one_mul] at below
  exact below

end Numeral

namespace Binary64

/-- The number is a finite one of the format. -/
def IsFinite : Binary64 → Prop
  | finite _ m e => IsScaled m e
  | _ => False

variable {ds m width : Nat} {k e : Int} {cs : List Char} {c : Char}

/-! ## Decimals -/

theorem roundsTo_iff_nears : RoundsTo ds k m e ↔ Nears (ds * 10 ^ k.toNat) (10 ^ (-k).toNat) m e := by
  have value : 4 * ds * 10 ^ k.toNat * 2 ^ (-e).toNat = 4 * (ds * 10 ^ k.toNat * 2 ^ (-e).toNat) := by
    simp only [Nat.mul_assoc]
  have ends (a : Nat) : a * 2 ^ e.toNat * 10 ^ (-k).toNat = a * (10 ^ (-k).toNat * 2 ^ e.toNat) := by
    rw [Nat.mul_assoc, Nat.mul_comm (2 ^ e.toNat)]
  constructor
  · rintro ⟨low, high, inside⟩
    rw [value, ends] at low high
    rw [value, ends, ends] at inside
    exact ⟨low, high, inside⟩
  · rintro ⟨low, high, inside⟩
    refine ⟨?_, ?_, ?_⟩
    · rw [value, ends]
      exact low
    · rw [value, ends]
      exact high
    · rw [value, ends, ends]
      exact inside

theorem eq_zero_of_scaled (h : IsScaled 0 e) : e = -1074 := by
  obtain ⟨-, least, -, full⟩ := h
  refine Int.le_antisymm (Int.not_lt.mp fun he => ?_) least
  exact absurd (full he) (by decide)

theorem RoundsTo.zero (h : IsScaled m e) (hr : RoundsTo 0 k m e) : m = 0 ∧ e = -1074 := by
  have low := hr.low
  have unit : 0 < 2 ^ e.toNat * 10 ^ (-k).toNat := Nat.mul_pos (Nat.pow_pos (by decide)) (Nat.pow_pos (by decide))
  have most := reach_le m e
  rw [Nat.mul_assoc, Nat.mul_zero, Nat.zero_mul, Nat.zero_mul, Nat.le_zero, Nat.mul_eq_zero] at low
  obtain rfl : m = 0 := by omega
  exact ⟨rfl, eq_zero_of_scaled h⟩

/-- A fraction that rounds to a number is turned into that number. -/
theorem ofRatio_of_roundsTo (neg : Bool) (h : IsScaled m e) (hr : RoundsTo ds k m e) :
    ofRatio neg (ds * 10 ^ k.toNat) (10 ^ (-k).toNat) = finite neg m e := by
  by_cases hn : ds * 10 ^ k.toNat = 0
  · obtain rfl : ds = 0 := (Nat.mul_eq_zero.mp hn).resolve_right (Nat.ne_of_gt (Nat.pow_pos (by decide)))
    obtain ⟨rfl, rfl⟩ := hr.zero h
    rw [ofRatio, if_pos hn]
  · have hd : 0 < 10 ^ (-k).toNat := Nat.pow_pos (by decide)
    obtain ⟨m', q, lt, least, full, near, hq⟩ := exists_ofRatio neg hn hd
    have rounds := roundsTo_iff_nears.mpr near
    have most : q ≤ 971 := by
      refine Int.not_lt.mp fun hlt => ?_
      exact hr.not_of_exponent h (full (by omega)) rounds (Int.lt_of_le_of_lt h.most hlt)
    obtain ⟨rfl, rfl⟩ := hr.unique h ⟨lt, least, most, full⟩ rounds
    rw [hq, if_neg (by omega)]

/-- No number is so great. -/
theorem RoundsTo.exponent_le (h : IsScaled m e) (hr : RoundsTo ds k m e) (hds : ds ≠ 0) : k ≤ 400 := by
  refine Int.not_lt.mp fun hk => ?_
  have high := hr.high
  rw [show (-k).toNat = 0 by omega, Nat.pow_zero, Nat.mul_one] at high
  have mantissa : 4 * m + 2 ≤ 4 * 2 ^ 53 + 2 := Nat.add_le_add_right (Nat.mul_le_mul_left 4 (Nat.le_of_lt h.lt)) 2
  have exponent : 2 ^ e.toNat ≤ 2 ^ 971 := pow_le_pow_right₀ (by decide) (by have := h.most; omega)
  have digits : 1 ≤ 4 * ds := by omega
  have place : 10 ^ 401 ≤ 10 ^ k.toNat := pow_le_pow_right₀ (by decide) (by omega)
  have unit : 1 ≤ 2 ^ (-e).toNat := Nat.pow_pos (by decide)
  have great : (4 * 2 ^ 53 + 2) * 2 ^ 971 < 1 * 10 ^ 401 * 1 := by decide +kernel
  exact absurd high (Nat.not_le.mpr (Nat.lt_of_le_of_lt (Nat.mul_le_mul mantissa exponent)
    (Nat.lt_of_lt_of_le great (Nat.mul_le_mul (Nat.mul_le_mul digits place) unit))))

/-- No number but zero is so small. -/
theorem RoundsTo.eq_zero (h : IsScaled m e) (hr : RoundsTo ds k m e) (hw : ds < 10 ^ width) (hk : k + width < -400) :
    m = 0 := by
  refine Nat.eq_zero_of_not_pos fun hm => ?_
  have low := hr.low
  rw [show k.toNat = 0 by omega, Nat.pow_zero, Nat.mul_one] at low
  have mantissa : 1 ≤ 4 * m - reach m e := by
    have := reach_le m e
    omega
  have exponent : 1 ≤ 2 ^ e.toNat := Nat.pow_pos (by decide)
  have place : 10 ^ (401 + width) ≤ 10 ^ (-k).toNat := pow_le_pow_right₀ (by decide) (by omega)
  rw [pow_add] at place
  have unit : 2 ^ (-e).toNat ≤ 2 ^ 1074 := pow_le_pow_right₀ (by decide) (by have := h.least; omega)
  have small : 4 * 2 ^ 1074 ≤ 10 ^ 401 := by decide +kernel
  have positive : 0 < 2 ^ 1074 := by decide +kernel
  generalize 2 ^ 1074 = p, 10 ^ 401 = q at unit small positive place
  have above : 4 * 10 ^ width * p ≤ 1 * 1 * (q * 10 ^ width) := by
    rw [Nat.mul_one, Nat.one_mul, Nat.mul_right_comm]
    exact Nat.mul_le_mul_right _ small
  have below : 4 * ds * 2 ^ (-e).toNat < 4 * 10 ^ width * p :=
    Nat.lt_of_le_of_lt (Nat.mul_le_mul_left _ unit) (Nat.mul_lt_mul_of_pos_right (by omega) positive)
  exact absurd low (Nat.not_le.mpr (Nat.lt_of_lt_of_le below
    (Nat.le_trans above (Nat.mul_le_mul (Nat.mul_le_mul mantissa exponent) place))))

/-- A decimal that rounds to a number is turned into that number. -/
theorem ofDecimal_of_roundsTo (neg : Bool) (h : IsScaled m e) (hr : RoundsTo ds k m e) (hw : ds < 10 ^ width) :
    ofDecimal neg ds width k = finite neg m e := by
  have ratio := ofRatio_of_roundsTo neg h hr
  unfold ofDecimal
  split
  · next hd =>
    subst hd
    obtain ⟨rfl, rfl⟩ := hr.zero h
    rfl
  split
  · next hd hk => exact absurd (hr.exponent_le h hd) (by omega)
  split
  · next hk =>
    obtain rfl := hr.eq_zero h hw hk
    rw [eq_zero_of_scaled h]
  split
  · next hk =>
    rw [show (-k).toNat = 0 by omega] at ratio
    exact ratio
  · next hk =>
    rw [show k.toNat = 0 by omega, Nat.pow_zero, Nat.mul_one] at ratio
    exact ratio

/-! ## Texts -/

theorem readDecimal?_eq (neg : Bool) (cs : List Char) : readDecimal? neg cs =
    let whole := cs.takeWhile Char.isDigit
    let frac := (fractionOf (cs.dropWhile Char.isDigit)).1
    if whole.isEmpty && frac.isEmpty then none
    else (readExponent? (fractionOf (cs.dropWhile Char.isDigit)).2).bind fun e =>
      some (ofDecimal neg (Numeral.digitsValue (whole ++ frac)) (whole ++ frac).length (e - frac.length)) :=
  rfl

theorem decimalOf?_eq (cs : List Char) : decimalOf? cs =
    (readExponent? (fractionOf (cs.dropWhile Char.isDigit)).2).map fun e : Int =>
      (Numeral.digitsValue (cs.takeWhile Char.isDigit ++ (fractionOf (cs.dropWhile Char.isDigit)).1),
        e - (fractionOf (cs.dropWhile Char.isDigit)).1.length) :=
  rfl

theorem areDigits_fractionOf (cs : List Char) : AreDigits (fractionOf cs).1 := by
  unfold fractionOf
  split
  · exact fun _ hc => List.mem_takeWhile_imp hc
  · intro c hc
    cases hc

/-- A text that begins with a digit is read as the decimal that it writes. -/
theorem readDecimal?_of_decimalOf? (neg : Bool) (hc : c.isDigit = true) (h : decimalOf? (c :: cs) = some (ds, k)) :
    ∃ width, ds < 10 ^ width ∧ readDecimal? neg (c :: cs) = some (ofDecimal neg ds width k) := by
  rw [decimalOf?_eq] at h
  obtain ⟨e, he, h⟩ := Option.map_eq_some_iff.mp h
  obtain ⟨rfl, rfl⟩ := Prod.mk.inj h
  have whole : AreDigits ((c :: cs).takeWhile Char.isDigit) := fun _ hc => List.mem_takeWhile_imp hc
  have some_digit : ((c :: cs).takeWhile Char.isDigit).isEmpty = false := by
    rw [List.takeWhile_cons_of_pos hc]
    rfl
  refine ⟨_, Numeral.digitsValue_lt (whole.append (areDigits_fractionOf _)), ?_⟩
  rw [readDecimal?_eq]
  dsimp only
  rw [some_digit, Bool.false_and, if_neg Bool.false_ne_true, he]
  rfl

/-- The text of a decimal begins with a digit. -/
theorem exists_writeDigits (ds : Nat) (k : Int) : ∃ c cs, writeDigits ds k = c :: cs ∧ c.isDigit = true := by
  unfold writeDigits
  dsimp only
  generalize (dropZeros 20 ds k).1 = ds', (dropZeros 20 ds k).2 = k'
  have digits : ds'.repr.toList = Nat.toDigits 10 ds' := by simp
  obtain ⟨d, ds, hds⟩ := List.exists_cons_of_ne_nil (Nat.toDigits_ne_nil (n := ds') (b := 10))
  have first : d.isDigit = true := areDigits_toDigits ds' d (hds ▸ List.mem_cons_self)
  rw [digits, hds]
  split
  · unfold positional
    split
    · exact ⟨'0', _, rfl, rfl⟩
    · next hp =>
      obtain ⟨n, hn⟩ : ∃ n, (k' + (d :: ds).length).toNat = n + 1 :=
        ⟨(k' + (d :: ds).length).toNat - 1, by omega⟩
      rw [hn]
      exact ⟨d, _, rfl, first⟩
  · unfold scientific
    cases ds with
    | nil => exact ⟨d, _, rfl, first⟩
    | cons e ds => exact ⟨d, _, rfl, first⟩

theorem exists_unsigned (neg : Bool) (m : Nat) (e : Int) :
    ∃ c cs, unsigned (finite neg m e) = c :: cs ∧ c.isDigit = true := by
  rw [unsigned]
  split
  · exact ⟨'0', _, rfl, rfl⟩
  · exact exists_writeDigits _ _

theorem IsFinite.isNumber {x : Binary64} (h : x.IsFinite) : x.IsNumber := by
  cases x with
  | nan | infinity => trivial
  | finite neg m e => exact h

theorem IsFinite.isPart {x : Binary64} (h : x.IsFinite) (hc : c ∈ (x.write jsonStyle).toList) : IsPart c := by
  cases x with
  | nan | infinity => exact h.elim
  | finite neg m e => exact mem_write_finite hc

theorem IsFinite.exists_mem_unsigned {x : Binary64} (h : x.IsFinite) : ∃ c ∈ x.unsigned, c.isDigit = false := by
  cases x with
  | nan | infinity => exact h.elim
  | finite neg m e =>
    obtain ⟨c, hc, hd, -⟩ := Binary64.exists_mem_unsigned neg m e
    exact ⟨c, hc, hd⟩

/-- The text of a finite number begins with a digit or a minus. -/
theorem exists_write {x : Binary64} (h : x.IsFinite) :
    ∃ c cs, (x.write jsonStyle).toList = c :: cs ∧ (c.isDigit = true ∨ c = '-') := by
  cases x with
  | nan | infinity => exact h.elim
  | finite neg m e =>
    obtain ⟨c, cs, hcs, hc⟩ := exists_unsigned neg m e
    rw [write, String.toList_ofList]
    cases neg with
    | false => exact ⟨c, cs, hcs, .inl hc⟩
    | true => exact ⟨'-', _, rfl, .inr rfl⟩

/-- The text of a finite number, without its sign, reads back as that number. -/
theorem readDecimal?_unsigned {x : Binary64} (h : x.IsFinite) : readDecimal? x.hasMinus x.unsigned = some x := by
  cases x with
  | nan | infinity => exact h.elim
  | finite neg m e =>
    obtain ⟨ds, k, hd, hr⟩ := roundsTo_unsigned neg h
    obtain ⟨c, cs, hcs, hc⟩ := exists_unsigned neg m e
    rw [hcs] at hd ⊢
    obtain ⟨width, hw, hread⟩ := readDecimal?_of_decimalOf? neg hc hd
    rw [hasMinus, hread, ofDecimal_of_roundsTo neg h hr hw]

end Binary64

end LoanLedger
