import LoanLedger.Binary64.Basic
import LoanLedger.Binary64.Text
import LoanLedger.Proofs.Binary64.Shortest
import LoanLedger.Proofs.Encodings

/-!
# The text of a number tells the number

* `decimalOf? cs` : the digits and the exponent that a decimal text writes;
* `decimalOf?_writeDigits` : those of the text of a decimal are its own, up to zeros at the end;
* `write_inj` : so different numbers have different texts.
-/

namespace LoanLedger

/-! ## Digits -/

namespace Numeral

theorem digitsValue_eq (cs : List Char) : digitsValue cs = Nat.ofDigitChars 10 cs 0 := Nat.ofDigitChars_eq_foldl.symm

theorem digitsValue_zeros_append (n : Nat) (cs : List Char) :
    digitsValue (List.replicate n '0' ++ cs) = digitsValue cs := by
  rw [digitsValue_eq, digitsValue_eq, Nat.ofDigitChars_append, Nat.ofDigitChars_replicate_zero, Nat.mul_zero]

theorem digitsValue_append_zeros (n : Nat) (cs : List Char) :
    digitsValue (cs ++ List.replicate n '0') = digitsValue cs * 10 ^ n := by
  rw [digitsValue_eq, digitsValue_eq, Nat.ofDigitChars_append, Nat.ofDigitChars_replicate_zero, Nat.mul_comm]

end Numeral

namespace Binary64

variable {ds m m' : Nat} {k e e' : Int} {cs fs rs : List Char}

/-! ## Decimals -/

def fractionOf : List Char → List Char × List Char
  | '.' :: cs => (cs.takeWhile Char.isDigit, cs.dropWhile Char.isDigit)
  | cs => ([], cs)

def decimalOf? (cs : List Char) : Option (Nat × Int) :=
  let (frac, rest) := fractionOf (cs.dropWhile Char.isDigit)
  (readExponent? rest).map fun e => (Numeral.digitsValue (cs.takeWhile Char.isDigit ++ frac), e - frac.length)

theorem fractionOf_of_not (h : '.' ∉ cs.head?) : fractionOf cs = ([], cs) := by
  unfold fractionOf
  split
  · exact absurd rfl h
  · rfl

/-- The text is made of digits. -/
def AreDigits (cs : List Char) : Prop := ∀ c ∈ cs, c.isDigit = true

theorem areDigits_toDigits (n : Nat) : AreDigits (Nat.toDigits 10 n) := fun _ => Numeral.isDigit_of_mem_toDigits

theorem areDigits_zeros (n : Nat) : AreDigits (List.replicate n '0') := by
  intro c hc
  rw [List.eq_of_mem_replicate hc]
  rfl

theorem AreDigits.append (h : AreDigits cs) (h' : AreDigits fs) : AreDigits (cs ++ fs) := by
  intro c hc
  exact (List.mem_append.mp hc).elim (h c) (h' c)

theorem AreDigits.mono (h : AreDigits cs) (hs : fs ⊆ cs) : AreDigits fs := fun c hc => h c (hs hc)

/-- Digits are cut off where none follows. -/
theorem span_digits (h : AreDigits cs) (hr : ∀ c ∈ rs.head?, c.isDigit = false) :
    (cs ++ rs).takeWhile Char.isDigit = cs ∧ (cs ++ rs).dropWhile Char.isDigit = rs := by
  have stops : rs.takeWhile Char.isDigit = [] ∧ rs.dropWhile Char.isDigit = rs := by
    cases rs with
    | nil => exact ⟨rfl, rfl⟩
    | cons c rs =>
      have hc : ¬c.isDigit = true := by simp [hr c rfl]
      exact ⟨List.takeWhile_cons_of_neg hc, List.dropWhile_cons_of_neg hc⟩
  rw [List.takeWhile_append_of_pos h, List.dropWhile_append_of_pos h, stops.1, stops.2, List.append_nil]
  exact ⟨rfl, rfl⟩

theorem decimalOf?_point (h : AreDigits cs) (hf : AreDigits fs) (hr : ∀ c ∈ rs.head?, c.isDigit = false) :
    decimalOf? (cs ++ '.' :: (fs ++ rs)) =
      (readExponent? rs).map fun e : Int => (Numeral.digitsValue (cs ++ fs), e - fs.length) := by
  have point : ∀ c ∈ ('.' :: (fs ++ rs)).head?, c.isDigit = false := by simp
  unfold decimalOf?
  rw [(span_digits h point).1, (span_digits h point).2, fractionOf, (span_digits hf hr).1, (span_digits hf hr).2]

theorem decimalOf?_whole (h : AreDigits cs) (hr : ∀ c ∈ rs.head?, c.isDigit = false ∧ c ≠ '.') :
    decimalOf? (cs ++ rs) = (readExponent? rs).map fun e : Int => (Numeral.digitsValue cs, e) := by
  have stops := span_digits h fun c hc => (hr c hc).1
  unfold decimalOf?
  rw [stops.1, stops.2, fractionOf_of_not fun hc => (hr '.' hc).2 rfl]
  simp

/-- Zeros at the end of the digits are counted into the exponent. -/
theorem dropZeros_spec (fuel ds : Nat) (k : Int) :
    ∃ n : Nat, ds = (dropZeros fuel ds k).1 * 10 ^ n ∧ k = (dropZeros fuel ds k).2 - n := by
  induction fuel generalizing ds k with
  | zero => exact ⟨0, by simp [dropZeros], by simp [dropZeros]⟩
  | succ fuel ih =>
    rw [dropZeros]
    split
    · next hz =>
      obtain ⟨n, hd, hk⟩ := ih (ds / 10) (k + 1)
      have tens : ds % 10 = 0 := by
        rw [Bool.and_eq_true, decide_eq_true_eq] at hz
        exact hz.1
      refine ⟨n + 1, ?_, by omega⟩
      rw [Nat.pow_succ, ← Nat.mul_assoc, ← hd]
      omega
    · exact ⟨0, by simp, by simp⟩

theorem readExponent?_digits (neg : Bool) (h : AreDigits cs) (hne : cs ≠ []) :
    readExponent? ('e' :: (if neg then '-' else '+') :: cs) =
      some (if neg then -(Numeral.digitsValue cs : Int) else Numeral.digitsValue cs) := by
  have proper : ¬(cs.isEmpty || !cs.all Char.isDigit) = true := by
    simpa [hne] using fun c hc => h c hc
  cases neg <;> exact if_neg proper

def exponentChars (n : Int) : List Char :=
  let cs := n.natAbs.repr.toList
  'e' :: (if n < 0 then '-' else '+') :: (if cs.length < 2 then '0' :: cs else cs)

theorem readExponent?_exponentChars (n : Int) : readExponent? (exponentChars n) = some n := by
  have digits : n.natAbs.repr.toList = Nat.toDigits 10 n.natAbs := by simp
  have signed (cs : List Char) (h : AreDigits cs) (hne : cs ≠ []) (hv : Numeral.digitsValue cs = n.natAbs) :
      readExponent? ('e' :: (if n < 0 then '-' else '+') :: cs) = some n := by
    have read := readExponent?_digits (decide (n < 0)) h hne
    simpa only [decide_eq_true_eq, hv, Numeral.signed_natAbs] using read
  unfold exponentChars
  rw [digits]
  dsimp only
  by_cases short : (Nat.toDigits 10 n.natAbs).length < 2
  · rw [if_pos short]
    exact signed _ ((areDigits_zeros 1).append (areDigits_toDigits _)) (List.cons_ne_nil _ _)
      ((Numeral.digitsValue_zeros_append 1 _).trans (Numeral.digitsValue_toDigits _))
  · rw [if_neg short]
    exact signed _ (areDigits_toDigits _) Nat.toDigits_ne_nil (Numeral.digitsValue_toDigits _)

/-- The digits and the exponent of a positional text. -/
theorem decimalOf?_positional (h : AreDigits cs) (place : Int) :
    ∃ n : Nat, decimalOf? (positional cs place) =
      some (Numeral.digitsValue cs * 10 ^ n, place - cs.length - n) := by
  have nothing : ∀ c ∈ ([] : List Char).head?, c.isDigit = false := by simp
  unfold positional
  split
  · next hp =>
    have point := decimalOf?_point (areDigits_zeros 1) ((areDigits_zeros (-place).toNat).append h) nothing
    rw [List.append_nil] at point
    refine ⟨0, point.trans ?_⟩
    rw [← List.append_assoc, List.replicate_append_replicate, Numeral.digitsValue_zeros_append]
    simp [readExponent?]
    omega
  · next hp =>
    dsimp only
    generalize hn : place.toNat = n
    rcases Nat.lt_or_ge n cs.length with hl | hl
    · -- the point stands between the digits
      have point := decimalOf?_point (h.mono (List.take_subset n cs)) (h.mono (List.drop_subset n cs)) nothing
      rw [List.append_nil] at point
      have some_digit : (cs.drop n).isEmpty = false := by simpa using hl
      rw [some_digit, show n - cs.length = 0 by omega, List.replicate_zero, List.append_nil]
      refine ⟨0, point.trans ?_⟩
      rw [List.take_append_drop]
      simp [readExponent?]
      omega
    · -- the point stands behind all of the digits, or farther
      have point := decimalOf?_point (h.append (areDigits_zeros (n - cs.length))) (areDigits_zeros 1) nothing
      rw [List.append_nil] at point
      have no_digit : (cs.drop n).isEmpty = true := by simpa using hl
      rw [no_digit, List.take_of_length_le hl]
      refine ⟨n - cs.length + 1, point.trans ?_⟩
      rw [List.append_assoc, List.replicate_append_replicate, Numeral.digitsValue_append_zeros]
      simp [readExponent?]
      omega

theorem exponentChars_head (n : Int) : ∀ c ∈ (exponentChars n).head?, c.isDigit = false ∧ c ≠ '.' := by
  intro c hc
  cases hc
  decide

/-- The digits and the exponent of a scientific text. -/
theorem decimalOf?_scientific (h : AreDigits cs) (hne : cs ≠ []) (n : Int) :
    decimalOf? (scientific cs n) = some (Numeral.digitsValue cs, n - (cs.length - 1 : Nat)) := by
  have stops := exponentChars_head n
  cases cs with
  | nil => exact absurd rfl hne
  | cons c cs =>
    cases cs with
    | nil =>
      have whole := decimalOf?_whole h stops
      rw [readExponent?_exponentChars] at whole
      exact whole.trans (by simp)
    | cons c' cs =>
      have first : AreDigits [c] := h.mono (by simp)
      have others : AreDigits (c' :: cs) := h.mono (by simp)
      have point := decimalOf?_point first others fun c hc => (stops c hc).1
      rw [readExponent?_exponentChars] at point
      exact point.trans (by simp)

/-- The text of a decimal writes that decimal, up to zeros at the end. -/
theorem decimalOf?_writeDigits (ds : Nat) (k : Int) :
    ∃ n : Nat, decimalOf? (writeDigits ds k) =
      some ((dropZeros 20 ds k).1 * 10 ^ n, (dropZeros 20 ds k).2 - n) := by
  unfold writeDigits
  dsimp only
  generalize (dropZeros 20 ds k).1 = ds', (dropZeros 20 ds k).2 = k'
  have digits : ds'.repr.toList = Nat.toDigits 10 ds' := by simp
  have some_digit : 0 < (Nat.toDigits 10 ds').length := List.length_pos_iff.mpr Nat.toDigits_ne_nil
  rw [digits]
  split
  · obtain ⟨n, hn⟩ := decimalOf?_positional (areDigits_toDigits ds') (k' + (Nat.toDigits 10 ds').length)
    rw [Numeral.digitsValue_toDigits, Int.add_sub_cancel] at hn
    exact ⟨n, hn⟩
  · refine ⟨0, (decimalOf?_scientific (areDigits_toDigits ds') Nat.toDigits_ne_nil _).trans ?_⟩
    rw [Numeral.digitsValue_toDigits, Nat.pow_zero, Nat.mul_one]
    congr 2
    omega

/-- What the text of a number writes rounds to the number. -/
theorem roundsTo_writeDigits (h : RoundsTo ds k m e) :
    ∃ ds' k', decimalOf? (writeDigits ds k) = some (ds', k') ∧ RoundsTo ds' k' m e := by
  obtain ⟨n, hn⟩ := decimalOf?_writeDigits ds k
  obtain ⟨z, hd, hk⟩ := dropZeros_spec 20 ds k
  generalize (dropZeros 20 ds k).1 = ds₀, (dropZeros 20 ds k).2 = k₀ at *
  rw [hd, hk, roundsTo_shift] at h
  exact ⟨_, _, hn, (roundsTo_shift n).mpr h⟩

/-! ## Numbers -/

/-- The text of a number without its sign. -/
def unsigned : Binary64 → List Char
  | nan => jsonStyle.nan.toList
  | infinity _ => jsonStyle.infinity.toList
  | finite _ m e => if m = 0 then ['0', '.', '0'] else writeDigits (shortest m e).1 (shortest m e).2

/-- What the text of a finite number writes rounds to the number. -/
theorem roundsTo_unsigned (neg : Bool) (h : IsScaled m e) :
    ∃ ds k, decimalOf? (unsigned (finite neg m e)) = some (ds, k) ∧ RoundsTo ds k m e := by
  rw [unsigned]
  by_cases hm : m = 0
  · subst hm
    exact ⟨0, -1, rfl, ⟨by simp, by simp, by simp⟩⟩
  · rw [if_neg hm]
    exact roundsTo_writeDigits (roundsTo_shortest h (Nat.pos_of_ne_zero hm))

theorem splitSign_of_decimal {p : Nat × Int} (h : decimalOf? cs = some p) : Numeral.splitSign cs = (false, cs) := by
  unfold Numeral.splitSign
  split
  · cases h
  · cases h
  · rfl

/-- The sign is split off the text of a number. -/
theorem splitSign_write {x : Binary64} (h : x.IsNumber) :
    Numeral.splitSign (x.write jsonStyle).toList = (x.hasMinus, x.unsigned) := by
  cases x with
  | nan => rfl
  | infinity neg => cases neg <;> rfl
  | finite neg m e =>
    obtain ⟨ds, k, hd, -⟩ := roundsTo_unsigned neg h
    rw [write, String.toList_ofList]
    cases neg with
    | false => exact splitSign_of_decimal hd
    | true => rfl

/-- Different numbers have different texts. -/
theorem write_inj {x y : Binary64} (hx : x.IsNumber) (hy : y.IsNumber) (h : x.write jsonStyle = y.write jsonStyle) :
    x = y := by
  have parts := splitSign_write hx
  rw [h, splitSign_write hy] at parts
  obtain ⟨sign, body⟩ := Prod.mk.inj parts
  cases x with
  | nan =>
    cases y with
    | nan => rfl
    | infinity neg => cases body
    | finite neg m e =>
      obtain ⟨ds, k, hd, -⟩ := roundsTo_unsigned neg hy
      rw [body] at hd
      cases hd
  | infinity neg =>
    cases y with
    | nan => cases body
    | infinity neg' => exact congrArg infinity sign.symm
    | finite neg' m e =>
      obtain ⟨ds, k, hd, -⟩ := roundsTo_unsigned neg' hy
      rw [body] at hd
      cases hd
  | finite neg m e =>
    obtain ⟨ds, k, hd, hr⟩ := roundsTo_unsigned neg hx
    cases y with
    | nan =>
      rw [← body] at hd
      cases hd
    | infinity neg' =>
      rw [← body] at hd
      cases hd
    | finite neg' m' e' =>
      obtain ⟨ds', k', hd', hr'⟩ := roundsTo_unsigned neg' hy
      rw [body, hd] at hd'
      cases hd'
      obtain ⟨rfl, rfl⟩ := hr.unique hx hy hr'
      exact congrArg (finite · m e) sign.symm

/-! ## Characters -/

/-- The characters of a decimal text. -/
def IsPart (c : Char) : Prop := c.isDigit = true ∨ c = '+' ∨ c = '-' ∨ c = '.' ∨ c = 'e'

theorem isPart_positional (h : AreDigits cs) (place : Int) : ∀ c ∈ positional cs place, IsPart c := by
  intro c hc
  unfold positional at hc
  split at hc
  · simp only [List.cons_append, List.mem_cons, List.mem_append, List.mem_replicate] at hc
    rcases hc with rfl | rfl | ⟨-, rfl⟩ | hc
    · exact .inl rfl
    · exact .inr (.inr (.inr (.inl rfl)))
    · exact .inl rfl
    · exact .inl (h c hc)
  · simp only [List.mem_append, List.mem_cons, List.mem_replicate] at hc
    rcases hc with (hc | ⟨-, rfl⟩) | rfl | hc
    · exact .inl (h c (List.mem_of_mem_take hc))
    · exact .inl rfl
    · exact .inr (.inr (.inr (.inl rfl)))
    · split at hc
      · rw [List.mem_singleton.mp hc]
        exact .inl rfl
      · exact .inl (h c (List.mem_of_mem_drop hc))

theorem isPart_exponentChars (n : Int) : ∀ c ∈ exponentChars n, IsPart c := by
  intro c hc
  have digits : n.natAbs.repr.toList = Nat.toDigits 10 n.natAbs := by simp
  unfold exponentChars at hc
  rw [digits] at hc
  simp only [List.mem_cons] at hc
  rcases hc with rfl | rfl | hc
  · exact .inr (.inr (.inr (.inr rfl)))
  · split
    · exact .inr (.inr (.inl rfl))
    · exact .inr (.inl rfl)
  · split at hc
    · exact .inl ((areDigits_zeros 1).append (areDigits_toDigits _) c hc)
    · exact .inl (areDigits_toDigits _ c hc)

theorem isPart_scientific (h : AreDigits cs) (n : Int) : ∀ c ∈ scientific cs n, IsPart c := by
  intro c hc
  rcases List.mem_append.mp (hc : c ∈ _ ++ exponentChars n) with hc | hc
  · split at hc
    · rcases List.mem_cons.mp hc with rfl | hc
      · exact .inl (h c List.mem_cons_self)
      rcases List.mem_cons.mp hc with rfl | hc
      · exact .inr (.inr (.inr (.inl rfl)))
      · exact .inl (h c (List.mem_cons_of_mem _ hc))
    · exact .inl (h c hc)
  · exact isPart_exponentChars n c hc

theorem isPart_writeDigits (ds : Nat) (k : Int) : ∀ c ∈ writeDigits ds k, IsPart c := by
  unfold writeDigits
  dsimp only
  have digits : (dropZeros 20 ds k).1.repr.toList = Nat.toDigits 10 (dropZeros 20 ds k).1 := by simp
  rw [digits]
  split
  · exact isPart_positional (areDigits_toDigits _) _
  · exact isPart_scientific (areDigits_toDigits _) _

/-- A decimal text has a point, or an exponent with a sign. -/
theorem exists_mem_writeDigits (ds : Nat) (k : Int) :
    '.' ∈ writeDigits ds k ∨
    'e' ∈ writeDigits ds k ∧ ('-' ∈ writeDigits ds k ∨ '+' ∈ writeDigits ds k) := by
  unfold writeDigits
  dsimp only
  split
  · left
    unfold positional
    split <;> simp
  · right
    generalize (dropZeros 20 ds k).1.repr.toList = cs, (dropZeros 20 ds k).2 + _ - 1 = n
    have exponent : 'e' ∈ exponentChars n ∧ ('-' ∈ exponentChars n ∨ '+' ∈ exponentChars n) := by
      unfold exponentChars
      by_cases h : n < 0 <;> simp [h]
    have behind {c : Char} (hc : c ∈ exponentChars n) : c ∈ scientific cs n := List.mem_append_right _ hc
    exact ⟨behind exponent.1, exponent.2.imp behind behind⟩

/-- The characters of the text of a finite number. -/
theorem mem_write_finite {neg : Bool} {c : Char} (h : c ∈ ((finite neg m e).write jsonStyle).toList) : IsPart c := by
  rw [write, String.toList_ofList] at h
  have body {c : Char} (hc : c ∈ unsigned (finite neg m e)) : IsPart c := by
    rw [unsigned] at hc
    split at hc
    · simp only [List.mem_cons, List.not_mem_nil, or_false] at hc
      rcases hc with rfl | rfl | rfl
      · exact .inl rfl
      · exact .inr (.inr (.inr (.inl rfl)))
      · exact .inl rfl
    · exact isPart_writeDigits _ _ c hc
  cases neg with
  | false => exact body h
  | true =>
    rcases List.mem_cons.mp h with rfl | h
    · exact .inr (.inr (.inl rfl))
    · exact body h

/-- The characters of the text of a number. -/
theorem mem_write {x : Binary64} {c : Char} (h : c ∈ (x.write jsonStyle).toList) :
    IsPart c ∨ c ∈ "-NaInfinity".toList := by
  have within {s : String} (hs : s.toList.all ("-NaInfinity".toList.contains ·) = true) (h : c ∈ s.toList) :
      c ∈ "-NaInfinity".toList := by
    simpa using List.all_eq_true.mp hs c h
  cases x with
  | nan => exact .inr (within (s := "NaN") rfl h)
  | infinity neg =>
    cases neg with
    | false => exact .inr (within (s := "Infinity") rfl h)
    | true => exact .inr (within (s := "-Infinity") rfl h)
  | finite neg m e => exact .inl (mem_write_finite h)

/-- The text of a finite number is not all digits. -/
theorem exists_mem_unsigned (neg : Bool) (m : Nat) (e : Int) :
    ∃ c ∈ unsigned (finite neg m e), c.isDigit = false ∧ c ≠ '-' := by
  rw [unsigned]
  split
  · exact ⟨'.', by decide, by decide⟩
  · rcases exists_mem_writeDigits (shortest m e).1 (shortest m e).2 with hc | ⟨hc, -⟩
    · exact ⟨_, hc, by decide⟩
    · exact ⟨_, hc, by decide⟩

/-- The text of a number is that of no whole number. -/
theorem exists_mem_write (x : Binary64) : ∃ c ∈ (x.write jsonStyle).toList, c.isDigit = false ∧ c ≠ '-' := by
  cases x with
  | nan => exact ⟨'N', by decide, by decide⟩
  | infinity neg => cases neg <;> exact ⟨'I', by decide, by decide⟩
  | finite neg m e =>
    rw [write, String.toList_ofList]
    obtain ⟨c, hc, hd⟩ := exists_mem_unsigned neg m e
    cases neg with
    | false => exact ⟨c, hc, hd⟩
    | true => exact ⟨c, List.mem_cons_of_mem _ hc, hd⟩

end Binary64

end LoanLedger
