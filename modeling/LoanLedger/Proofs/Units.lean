import LoanLedger.Text.Units
import Mathlib.Data.List.Chain

/-!
# Texts as UTF-16 units

* `Points.merged ps` : the code points with each pair of surrogates made one; `Points.ofUnits_units` : that is what the
  units of a text read back as;
* `Points.IsWhole ps` : no high surrogate stands directly before a low one; `Points.merged_eq_iff` : then, and only
  then, a text reads back as it was;
* `Points.ofString_isWhole` : so it does when it consists of characters, and `Points.toString?_ofString` these are read.
-/

namespace LoanLedger.Text

variable {p q : Point} {ps : Points} {u : Unit16} {us : Units}

/-! ## Units of a code point -/

theorem Point.units_of_lt (h : p.val < 0x10000) : p.units = [⟨p.val, h⟩] := dif_pos h

theorem Unit16.point_mk (h : p.val < 0x10000) : Unit16.point ⟨p.val, h⟩ = p := rfl

/-- Two units make the code point that they are the units of. -/
theorem Points.ofUnits_plane (h : 0x10000 ≤ p.val) (us : Units) : ofUnits (p.units ++ us) = p :: ofUnits us := by
  have bound := p.isLt
  have pair : Point.ofPair (0xD800 + (p.val - 0x10000) / 0x400) (0xDC00 + (p.val - 0x10000) % 0x400) = p := by
    apply Fin.ext
    rw [Point.ofPair, Fin.val_ofNat]
    omega
  have surrogates : (isHighSurrogate (0xD800 + (p.val - 0x10000) / 0x400) &&
      isLowSurrogate (0xDC00 + (p.val - 0x10000) % 0x400)) = true := by
    simp only [isHighSurrogate, isLowSurrogate, Bool.and_eq_true, decide_eq_true_eq]
    omega
  rw [Point.units, dif_neg (Nat.not_lt.mpr h), List.cons_append, List.cons_append, List.nil_append, ofUnits,
    if_pos surrogates, pair]

/-- Whatever stands before a unit that is no low surrogate, stands for itself. -/
theorem Points.ofUnits_cons (h : ∀ v ∈ us.head?, ¬(isHighSurrogate u.val && isLowSurrogate v.val) = true) :
    ofUnits (u :: us) = u.point :: ofUnits us := by
  cases us with
  | nil => rfl
  | cons v us => rw [ofUnits, if_neg (h v rfl)]

/-! ## Pairs of surrogates -/

namespace Points

/-- The text with one code point for each high surrogate directly before a low one. -/
def merged : Points → Points
  | [] => []
  | [p] => [p]
  | p :: q :: ps =>
    if isHighSurrogate p.val && isLowSurrogate q.val then .ofPair p.val q.val :: merged ps
    else p :: merged (q :: ps)

/-- No high surrogate stands directly before a low one. -/
def IsWhole (ps : Points) : Prop :=
  ps.IsChain fun p q => ¬(isHighSurrogate p.val && isLowSurrogate q.val) = true

theorem units_cons (p : Point) (ps : Points) : units (p :: ps) = p.units ++ ps.units := rfl

/-- What a text reads back as from its units. -/
theorem ofUnits_units (ps : Points) : ofUnits ps.units = ps.merged := by
  fun_induction merged ps with
  | case1 => rfl
  | case2 p =>
    by_cases h : p.val < 0x10000
    · rw [units_cons, Point.units_of_lt h]
      rfl
    · rw [units_cons, ofUnits_plane (Nat.not_lt.mp h)]
      rfl
  | case3 p q ps h ih =>
    have surrogates := h
    simp only [isHighSurrogate, isLowSurrogate, Bool.and_eq_true, decide_eq_true_eq] at surrogates
    have hp : p.val < 0x10000 := by omega
    have hq : q.val < 0x10000 := by omega
    rw [units_cons, units_cons, Point.units_of_lt hp, Point.units_of_lt hq, List.singleton_append,
      List.singleton_append, ofUnits, if_pos h, ih]
  | case4 p q ps h ih =>
    by_cases hp : p.val < 0x10000
    · rw [units_cons, Point.units_of_lt hp, List.singleton_append, ofUnits_cons, ih, Unit16.point_mk hp]
      intro v hv
      by_cases hq : q.val < 0x10000
      · rw [units_cons, Point.units_of_lt hq] at hv
        cases hv
        exact h
      · rw [units_cons, Point.units, dif_neg hq] at hv
        cases hv
        have bound := q.isLt
        simp only [isHighSurrogate, isLowSurrogate, Bool.and_eq_true, decide_eq_true_eq]
        omega
    · rw [units_cons, ofUnits_plane (Nat.not_lt.mp hp), ih]

theorem length_merged_le (ps : Points) : ps.merged.length ≤ ps.length := by
  fun_induction merged ps with
  | case1 => exact Nat.le_refl _
  | case2 p => exact Nat.le_refl _
  | case3 p q ps h ih => simp only [List.length_cons]; omega
  | case4 p q ps h ih => simp only [List.length_cons] at ih ⊢; omega

/-- A text reads back as it was just if no high surrogate stands directly before a low one. -/
theorem merged_eq_iff : ps.merged = ps ↔ ps.IsWhole := by
  fun_induction merged ps with
  | case1 => exact iff_of_true rfl .nil
  | case2 p => exact iff_of_true rfl (.singleton p)
  | case3 p q ps h ih =>
    refine iff_of_false (fun he => ?_) (fun hw => List.isChain_cons_cons.mp hw |>.1 h)
    have shorter := length_merged_le ps
    have := congrArg List.length he
    simp only [List.length_cons] at this
    omega
  | case4 p q ps h ih => rw [List.cons.injEq, IsWhole, List.isChain_cons_cons, ih, IsWhole]; simp [h]

end Points

/-! ## Characters -/

theorem Point.char?_ofChar (c : Char) : (Point.ofChar c).char? = some c := by
  have valid : Nat.isValidChar (Point.ofChar c).val := c.valid
  rw [Point.char?, dif_pos valid]
  exact congrArg some (Char.ext (UInt32.toNat_inj.mp rfl))

theorem Point.ofChar_not_high (c : Char) : isHighSurrogate (ofChar c).val = false := by
  have := c.valid
  simp only [UInt32.isValidChar, Nat.isValidChar] at this
  simp only [isHighSurrogate, Bool.and_eq_false_iff, decide_eq_false_iff_not]
  change ¬ 0xD800 ≤ c.val.toNat ∨ ¬ c.val.toNat < 0xDC00
  omega

namespace Points

theorem toString?_ofString (s : String) : (ofString s).toString? = some s := by
  have chars (cs : List Char) : (cs.map Point.ofChar).mapM Point.char? = some cs := by
    induction cs with
    | nil => rfl
    | cons c cs ih => rw [List.map_cons, List.mapM_cons, Point.char?_ofChar, ih]; rfl
  rw [toString?, ofString, chars, Option.map_some, String.ofList_toList]

theorem ofString_isWhole (s : String) : (ofString s).IsWhole := by
  rw [ofString]
  induction s.toList with
  | nil => exact .nil
  | cons c cs ih =>
    cases cs with
    | nil => exact .singleton _
    | cons d cs =>
      refine List.isChain_cons_cons.mpr ⟨?_, ih⟩
      rw [Point.ofChar_not_high, Bool.false_and]
      exact Bool.false_ne_true

theorem merged_ofString (s : String) : (ofString s).merged = ofString s := merged_eq_iff.mpr (ofString_isWhole s)

theorem ofString_injective : Function.Injective ofString := fun s t h =>
  Option.some.inj ((toString?_ofString s).symm.trans (h ▸ toString?_ofString t))

end Points

end LoanLedger.Text
