import Mathlib.Algebra.Group.Nat.Defs
import LoanLedger.Audit.Chain
import LoanLedger.Calendar.Iso

/-!
# What the text of a number, a time or a digest tells

* `Text.ofHexChars?_hexChars` : the last hexadecimal digits of a number read back;
* `Numeral.toList_ofInt`, `Numeral.digitsValue_toDigits` : the sign and the digits of a whole number, and
  `Numeral.ofInt_inj` : so different numbers have different texts;
* `Calendar.Timestamp.iso_inj` : different times have different texts in ISO form;
* `IsDigest s` : 64 hexadecimal digits; `isDigest_digestOf` : every digest is that.
-/

namespace LoanLedger

/-! ## Hexadecimal digits -/

namespace Text

theorem toNat_ofNat {n : Nat} (hn : n < 0x100) : (Char.ofNat n).toNat = n := by
  have valid : n.isValidChar := .inl (by omega)
  rw [Char.ofNat, dif_pos valid]
  rfl

theorem hexValue?_hexDigit : ∀ {k : Nat}, k < 16 → hexValue? (hexDigit k) = some k := by
  decide

theorem ofHexChars?_hexChars (w n : Nat) : ofHexChars? (hexChars w n) = some (n % 16 ^ w) := by
  induction w generalizing n with
  | zero => simp [hexChars, ofHexChars?, Nat.mod_one]
  | succ w ih =>
    have digit : hexValue? (hexDigit (n % 16)) = some (n % 16) := hexValue?_hexDigit (Nat.mod_lt n (by decide))
    unfold ofHexChars? at ih ⊢
    rw [hexChars, List.foldlM_append, ih]
    simp only [bind, Option.bind, List.foldlM_cons, List.foldlM_nil, digit, Option.map_some, pure]
    rw [Nat.pow_succ, Nat.mul_comm (16 ^ w) 16, Nat.mod_mul, Nat.add_comm]

theorem length_hexChars (w n : Nat) : (hexChars w n).length = w := by
  induction w generalizing n with
  | zero => rfl
  | succ w ih => rw [hexChars, List.length_append, ih, List.length_singleton]

theorem isSome_of_mem_hexChars {w n : Nat} {c : Char} (h : c ∈ hexChars w n) : (hexValue? c).isSome := by
  induction w generalizing n with
  | zero => cases h
  | succ w ih =>
    rcases List.mem_append.mp h with h | h
    · exact ih h
    · rw [List.mem_singleton.mp h, hexValue?_hexDigit (Nat.mod_lt n (by decide))]
      rfl

end Text

/-! ## Whole numbers -/

theorem toNat_le_of_isDigit {c : Char} (h : c.isDigit = true) : c.toNat ≤ 57 := by
  have : (decide (48 ≤ c.val) && decide (c.val ≤ 57)) = true := h
  have upper : c.val ≤ 57 := by simpa using (Bool.and_eq_true_iff.mp this).2
  exact UInt32.le_iff_toNat_le.mp upper

namespace Numeral

theorem toList_ofInt (n : Int) :
    (ofInt n).toList = (if n < 0 then ['-'] else []) ++ Nat.toDigits 10 n.natAbs := by
  cases n with
  | ofNat n => simp [ofInt]
  | negSucc n => simp [ofInt, Int.negSucc_lt_zero, String.toList_append]

theorem isDigit_of_mem_toDigits {n : Nat} {c : Char} (h : c ∈ Nat.toDigits 10 n) : c.isDigit = true :=
  Nat.isDigit_of_mem_toDigits (by decide) (by decide) h

theorem digitsValue_toDigits (n : Nat) : digitsValue (Nat.toDigits 10 n) = n := by
  have h := Nat.ofDigitChars_ten_toDigits (n := n)
  rw [Nat.ofDigitChars_eq_foldl] at h
  exact h

theorem splitSign_ofInt (n : Int) :
    splitSign (ofInt n).toList = (decide (n < 0), Nat.toDigits 10 n.natAbs) := by
  rw [toList_ofInt]
  by_cases h : n < 0
  · simp [h, splitSign]
  · rw [if_neg h, List.nil_append, decide_eq_false h]
    -- the first digit is no sign
    cases hd : Nat.toDigits 10 n.natAbs with
    | nil => rfl
    | cons c cs =>
      have hc : c.isDigit = true := isDigit_of_mem_toDigits (hd ▸ List.mem_cons_self)
      unfold splitSign
      split
      · next he => cases he; exact absurd hc (by decide)
      · next he => cases he; exact absurd hc (by decide)
      · rfl

theorem signed_natAbs (n : Int) : (if n < 0 then -(n.natAbs : Int) else n.natAbs) = n := by
  split <;> omega

theorem ofInt_inj {m n : Int} (h : ofInt m = ofInt n) : m = n := by
  have hs := splitSign_ofInt m
  rw [h, splitSign_ofInt n] at hs
  obtain ⟨hneg, hd⟩ := Prod.mk.inj hs
  have ha : n.natAbs = m.natAbs := by rw [← digitsValue_toDigits n.natAbs, hd, digitsValue_toDigits]
  have hneg : n < 0 ↔ m < 0 := by simpa using hneg
  omega

/-- The characters of a number are digits or its sign. -/
theorem mem_ofInt {n : Int} {c : Char} (h : c ∈ (ofInt n).toList) : c.isDigit = true ∨ c = '-' := by
  rw [toList_ofInt] at h
  rcases List.mem_append.mp h with h | h
  · split at h
    · exact .inr (List.mem_singleton.mp h)
    · cases h
  · exact .inl (isDigit_of_mem_toDigits h)

end Numeral

/-! ## Times -/

namespace Calendar

variable {r r' : List Char}

theorem digit_inj : ∀ {m n : Nat}, m < 10 → n < 10 → Char.ofNat (0x30 + m) = Char.ofNat (0x30 + n) → m = n := by
  have toNat : ∀ k < 10, (Char.ofNat (0x30 + k)).toNat = 0x30 + k := by decide
  intro m n hm hn h
  have := congrArg Char.toNat h
  rw [toNat m hm, toNat n hn] at this
  omega

theorem length_padded (w n : Nat) : (padded w n).length = w := by
  induction w generalizing n with
  | zero => rfl
  | succ w ih => rw [padded, List.length_append, ih, List.length_singleton]

theorem padded_inj {w m n : Nat} (hm : m < 10 ^ w) (hn : n < 10 ^ w) (h : padded w m = padded w n) : m = n := by
  induction w generalizing m n with
  | zero => omega
  | succ w ih =>
    rw [Nat.pow_succ] at hm hn
    obtain ⟨hq, hr⟩ := List.append_inj' h rfl
    have hq : m / 10 = n / 10 := ih (by omega) (by omega) hq
    have hr : m % 10 = n % 10 :=
      digit_inj (Nat.mod_lt _ (by decide)) (Nat.mod_lt _ (by decide)) (List.cons.inj hr).1
    omega

/-- A number of known width is cut off the front. -/
theorem padded_append_inj {w m n : Nat} (hm : m < 10 ^ w) (hn : n < 10 ^ w)
    (h : padded w m ++ r = padded w n ++ r') : m = n ∧ r = r' := by
  obtain ⟨hp, hr⟩ := List.append_inj h (by rw [length_padded, length_padded])
  exact ⟨padded_inj hm hn hp, hr⟩

theorem microChars_append_inj {m n : Nat} (hm : m < 1000000) (hn : n < 1000000) (hr : '.' ∉ r.head?)
    (hr' : '.' ∉ r'.head?) (h : microChars m ++ r = microChars n ++ r') : m = n ∧ r = r' := by
  unfold microChars at h
  split at h <;> split at h
  · next hm hn => exact ⟨hm.trans hn.symm, h⟩
  · exact absurd (by rw [List.nil_append] at h; rw [h]; rfl) hr
  · exact absurd (by rw [List.nil_append] at h; rw [← h]; rfl) hr'
  · exact padded_append_inj hm hn (List.cons.inj h).2

/-- The numbers of a day fit their places in the text. -/
theorem Date.bounds (d : Date) : d.year < 10 ^ 4 ∧ d.month < 10 ^ 2 ∧ d.day < 10 ^ 2 := by
  obtain ⟨year, month, day, hy, hm, hd⟩ := d
  have hlast : daysInMonth year month ≤ 31 := by
    unfold daysInMonth
    repeat' split
    all_goals decide
  dsimp only
  omega

theorem Date.isoChars_append_inj {a b : Date} (h : a.isoChars ++ r = b.isoChars ++ r') : a = b ∧ r = r' := by
  obtain ⟨hy, hm, hd⟩ := a.bounds
  obtain ⟨hy', hm', hd'⟩ := b.bounds
  obtain ⟨year, month, day, ha⟩ := a
  obtain ⟨year', month', day', hb⟩ := b
  simp only [isoChars, List.append_assoc, List.cons_append] at h
  obtain ⟨rfl, hmonth⟩ := padded_append_inj hy hy' h
  obtain ⟨rfl, hday⟩ := padded_append_inj hm hm' (List.cons.inj hmonth).2
  obtain ⟨rfl, hrest⟩ := padded_append_inj hd hd' (List.cons.inj hday).2
  exact ⟨rfl, hrest⟩

theorem TimeOfDay.isoChars_append_inj {a b : TimeOfDay} (hr : '.' ∉ r.head?) (hr' : '.' ∉ r'.head?)
    (h : a.isoChars ++ r = b.isoChars ++ r') : a = b ∧ r = r' := by
  obtain ⟨hour, minute, second, micro, hh, hm, hs, hu⟩ := a
  obtain ⟨hour', minute', second', micro', hh', hm', hs', hu'⟩ := b
  simp only [isoChars, List.append_assoc, List.cons_append] at h
  obtain ⟨rfl, hminute⟩ := padded_append_inj (w := 2) (by omega) (by omega) h
  obtain ⟨rfl, hsecond⟩ := padded_append_inj (w := 2) (by omega) (by omega) (List.cons.inj hminute).2
  obtain ⟨rfl, hmicro⟩ := padded_append_inj (w := 2) (by omega) (by omega) (List.cons.inj hsecond).2
  obtain ⟨rfl, hrest⟩ := microChars_append_inj hu hu' hr hr' hmicro
  exact ⟨rfl, hrest⟩

theorem Offset.isoChars_inj {a b : Offset} (h : a.isoChars = b.isoChars) : a = b := by
  obtain ⟨m, hm⟩ := a
  obtain ⟨n, hn⟩ := b
  unfold microsPerDay at hm hn
  simp only [isoChars, List.append_assoc, List.cons_append] at h
  obtain ⟨hsign, h⟩ := List.cons.inj h
  obtain ⟨hhour, h⟩ := padded_append_inj (by omega) (by omega) h
  obtain ⟨hminute, h⟩ := padded_append_inj (by omega) (by omega) (List.cons.inj h).2
  have hfine : m.natAbs / 1000000 % 60 = n.natAbs / 1000000 % 60 ∧ m.natAbs % 1000000 = n.natAbs % 1000000 := by
    split at h <;> split at h
    · next hz hz' =>
      rw [Bool.and_eq_true, decide_eq_true_eq, decide_eq_true_eq] at hz hz'
      exact ⟨hz.1.trans hz'.1.symm, hz.2.trans hz'.2.symm⟩
    · cases h
    · cases h
    · obtain ⟨hs, h⟩ := padded_append_inj (by omega) (by omega) (List.cons.inj h).2
      have hm : m.natAbs % 1000000 < 1000000 := Nat.mod_lt _ (by decide)
      have hn : n.natAbs % 1000000 < 1000000 := Nat.mod_lt _ (by decide)
      exact ⟨hs, (microChars_append_inj hm hn (by simp) (by simp) (congrArg (· ++ []) h)).1⟩
  have hneg : m < 0 ↔ n < 0 := by
    split at hsign <;> split at hsign
    · next hm hn => exact iff_of_true hm hn
    · exact absurd hsign (by decide)
    · exact absurd hsign (by decide)
    · next hm hn => exact iff_of_false hm hn
  have hmn : m = n := by omega
  subst hmn
  rfl

/-- Different times have different texts. -/
theorem Timestamp.iso_inj {a b : Timestamp} (h : a.iso = b.iso) : a = b := by
  obtain ⟨date, time, offset⟩ := a
  obtain ⟨date', time', offset'⟩ := b
  have h := String.ofList_injective h
  simp only [isoCharsWith, List.append_assoc, List.cons_append] at h
  obtain ⟨rfl, hclock⟩ := Date.isoChars_append_inj h
  -- what follows the time of day is no point
  have sign (o : Option Offset) : '.' ∉ (o.elim [] Offset.isoChars).head? := by
    cases o with
    | none => simp
    | some o =>
      simp only [Option.elim_some, Offset.isoChars, List.cons_append, List.append_assoc, List.head?_cons,
        Option.mem_def, Option.some.injEq]
      split <;> decide
  obtain ⟨rfl, hoffset⟩ := TimeOfDay.isoChars_append_inj (sign offset) (sign offset') (List.cons.inj hclock).2
  cases offset <;> cases offset'
  · rfl
  · simp [Offset.isoChars] at hoffset
  · simp [Offset.isoChars] at hoffset
  · next o o' => rw [Offset.isoChars_inj hoffset]

end Calendar

/-! ## Digests -/

structure IsDigest (s : String) : Prop where
  length : s.length = 64
  digits : ∀ c ∈ s.toList, (Text.hexValue? c).isSome

theorem Sha256.length_bytesOf (n x : Nat) : (bytesOf n x).length = n := by
  induction n generalizing x with
  | zero => rfl
  | succ n ih => rw [bytesOf, List.length_append, ih, List.length_singleton]

theorem Sha256.length_digest (bs : List UInt8) : (digest bs).length = 32 := by
  simp [digest, length_bytesOf]

theorem Text.length_hexOfBytes (bs : List UInt8) : (hexOfBytes bs).length = 2 * bs.length := by
  rw [hexOfBytes, String.length_ofList]
  induction bs with
  | nil => rfl
  | cons b bs ih =>
    rw [List.flatMap_cons, List.length_append, ih, length_hexChars, List.length_cons]
    omega

theorem isDigest_digestOf (s : String) : IsDigest (digestOf s) where
  length := by rw [digestOf, Text.length_hexOfBytes, Sha256.length_digest]
  digits c hc := by
    rw [digestOf, Text.hexOfBytes, String.toList_ofList] at hc
    obtain ⟨b, -, hc⟩ := List.mem_flatMap.mp hc
    exact Text.isSome_of_mem_hexChars hc

end LoanLedger
