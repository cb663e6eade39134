import LoanLedger.Json.Reader
import LoanLedger.Proofs.Binary64.Reading
import LoanLedger.Proofs.Encodings
import LoanLedger.Proofs.Units

/-!
# JSON text reads back

* `JsonOf.IsReadable j` : each binary fraction in `j` is a finite number of the format;
* `Layout.IsPlain layout` : nothing but blanks around the commas and colons;
* `Wire.read?_render` : what is written of a readable value in such a layout reads back as that value.
-/

namespace LoanLedger

open Text (Unit16 Units Point)

namespace JsonOf

variable {τ : Type}

mutual

/-- Each binary fraction at any depth is a finite number of the format. -/
def IsReadable : JsonOf τ → Prop
  | float x => x.IsFinite
  | list vs => AreReadable vs
  | object ms => HaveReadable ms
  | _ => True

def AreReadable : List (JsonOf τ) → Prop
  | [] => True
  | v :: vs => IsReadable v ∧ AreReadable vs

def HaveReadable : List (τ × JsonOf τ) → Prop
  | [] => True
  | (_, v) :: ms => IsReadable v ∧ HaveReadable ms

end

end JsonOf

namespace Json

/-! ## Blanks -/

def IsBlank (c : Char) : Prop := c = ' ' ∨ c = '\n' ∨ c = '\r' ∨ c = '\t'

instance : DecidablePred IsBlank := fun _ => inferInstanceAs (Decidable (_ ∨ _))

/-- Nothing but blanks stands behind the comma and the colon. -/
structure Layout.IsPlain (layout : Layout) : Prop where
  comma : ∃ bs, layout.comma = ',' :: bs ∧ ∀ c ∈ bs, IsBlank c
  colon : ∃ bs, layout.colon = ':' :: bs ∧ ∀ c ∈ bs, IsBlank c

theorem compact_isPlain : compact.IsPlain := ⟨⟨[], rfl, by simp⟩, ⟨[], rfl, by simp⟩⟩

theorem spaced_isPlain : spaced.IsPlain :=
  ⟨⟨[' '], rfl, by simp [IsBlank]⟩, ⟨[' '], rfl, by simp [IsBlank]⟩⟩

end Json

namespace Wire

open Json (IsBlank Layout)
open JsonOf (AreReadable HaveReadable)

theorem skipBlanks_append {bs cs : List Char} (h : ∀ c ∈ bs, IsBlank c) :
    skipBlanks (bs ++ cs) = skipBlanks cs := by
  refine List.dropWhile_append_of_pos fun c hc => ?_
  rcases h c hc with rfl | rfl | rfl | rfl <;> decide

theorem skipBlanks_cons {c : Char} {cs : List Char} (h : ¬IsBlank c) : skipBlanks (c :: cs) = c :: cs := by
  refine List.dropWhile_cons_of_neg fun hc => h ?_
  simpa [IsBlank, or_assoc] using hc

variable {layout : Layout} {r : List Char} {fuel : Nat}

theorem readValue?_blanks {bs cs : List Char} (h : ∀ c ∈ bs, IsBlank c) :
    readValue? fuel (bs ++ cs) = readValue? fuel cs := by
  cases fuel with
  | zero => rw [readValue?, readValue?]
  | succ fuel => rw [readValue?, readValue?, skipBlanks_append h]

theorem readMembers?_blanks {bs cs : List Char} (h : ∀ c ∈ bs, IsBlank c) :
    readMembers? fuel (bs ++ cs) = readMembers? fuel cs := by
  cases fuel with
  | zero => rw [readMembers?, readMembers?]
  | succ fuel => rw [readMembers?, readMembers?, skipBlanks_append h]

theorem readElements?_blanks {bs cs : List Char} (h : ∀ c ∈ bs, IsBlank c) :
    readElements? fuel (bs ++ cs) = readElements? fuel cs := by
  cases fuel with
  | zero => rw [readElements?, readElements?]
  | succ fuel => rw [readElements?, readElements?, readValue?_blanks h]

/-! ## Texts -/

theorem readUnit?_hexChars (u : Unit16) (cs : List Char) : readUnit? (Text.hexChars 4 u.val ++ cs) = some (u, cs) := by
  have value := Text.ofHexChars?_hexChars 4 u.val
  have small : u.val < 16 ^ 4 := Nat.lt_of_lt_of_le u.isLt (by decide)
  rw [Nat.mod_eq_of_lt small] at value
  obtain ⟨a, b, c, d, hcs⟩ : ∃ a b c d, Text.hexChars 4 u.val = [a, b, c, d] := ⟨_, _, _, _, rfl⟩
  rw [hcs] at value ⊢
  rw [List.cons_append, List.cons_append, List.cons_append, List.singleton_append, readUnit?, value, Option.map_some,
    Fin.ofNat_val_eq_self]

theorem units_ofChar {u : Unit16} (h : u.val ≤ 0x7E) : (Point.ofChar (Char.ofNat u.val)).units = [u] := by
  have value : (Point.ofChar (Char.ofNat u.val)).val = u.val := Text.toNat_ofNat (by omega)
  rw [Point.units_of_lt (by omega)]
  exact congrArg (fun u => [u]) (Fin.ext value)

/-- An escaped unit reads back. -/
theorem readText?_escapeUnit (u : Unit16) (cs : List Char) :
    readText? (fuel + 1) (escapeUnit u ++ cs) = (readText? fuel cs).map fun p => (u :: p.1, p.2) := by
  have escaped {v : Unit16} {cs' : List Char} (hv : u.val = v.val) (h : readEscape? cs' = some (v, cs)) :
      readText? (fuel + 1) ('\\' :: cs') = (readText? fuel cs).map fun p => (u :: p.1, p.2) := by
    obtain rfl : u = v := Fin.ext hv
    rw [readText?, if_neg (by decide), if_pos rfl, h]
    dsimp only [bind, Option.bind]
    cases readText? fuel cs <;> rfl
  unfold escapeUnit
  dsimp only
  iterate 7
    split
    · next h => exact escaped h rfl
  split
  · next hquote hslash _ _ _ _ _ h =>
    simp only [Bool.and_eq_true, decide_eq_true_eq] at h
    have value : (Char.ofNat u.val).toNat = u.val := Text.toNat_ofNat (by omega)
    have quote : Char.ofNat u.val ≠ '"' := fun he => hquote (value.symm.trans (congrArg Char.toNat he))
    have slash : Char.ofNat u.val ≠ '\\' := fun he => hslash (value.symm.trans (congrArg Char.toNat he))
    rw [List.singleton_append, readText?, if_neg quote, if_neg slash, units_ofChar h.2]
    cases readText? fuel cs <;> rfl
  · exact escaped rfl (readUnit?_hexChars u cs)

theorem readText?_flatMap (s : Units) (hf : s.length < fuel) :
    readText? fuel (s.flatMap escapeUnit ++ '"' :: r) = some (s, r) := by
  induction s generalizing fuel with
  | nil =>
    obtain ⟨fuel, rfl⟩ : ∃ n, fuel = n + 1 := ⟨fuel - 1, by simp at hf; omega⟩
    rfl
  | cons u s ih =>
    rw [List.length_cons] at hf
    obtain ⟨fuel, rfl⟩ : ∃ n, fuel = n + 1 := ⟨fuel - 1, by omega⟩
    rw [List.flatMap_cons, List.append_assoc, readText?_escapeUnit, ih (by omega)]
    rfl

theorem length_le_flatMap (s : Units) : s.length ≤ (s.flatMap escapeUnit).length := by
  induction s with
  | nil => exact Nat.le_refl _
  | cons u s ih =>
    have : 0 < (escapeUnit u).length := by
      unfold escapeUnit
      dsimp only
      repeat' split
      all_goals simp [unitEscape]
    rw [List.flatMap_cons, List.length_append, List.length_cons]
    omega

/-- A text between quotes reads back, behind its opening quote. -/
theorem readText?_quoted (s : Units) :
    ∃ cs, renderText s ++ r = '"' :: cs ∧ readText? (cs.length + 1) cs = some (s, r) := by
  refine ⟨s.flatMap escapeUnit ++ '"' :: r, by simp [renderText], readText?_flatMap _ ?_⟩
  have := length_le_flatMap s
  rw [List.length_append]
  omega

/-! ## Numbers -/

/-- What may follow a value. -/
def Stops (r : List Char) : Prop := ∀ c ∈ r.head?, c = ',' ∨ c = ']' ∨ c = '\x7d'

theorem stops_nil : Stops [] := by simp [Stops]

theorem stops_cons {c : Char} (h : c = ',' ∨ c = ']' ∨ c = '\x7d') (cs : List Char) : Stops (c :: cs) := by
  simpa [Stops] using h

def isPart (c : Char) : Bool := c.isDigit || c = '-' || c = '+' || c = '.' || c = 'e' || c = 'E'

/-- A number is cut off where something follows that may follow a value. -/
theorem span_number {cs : List Char} (h : ∀ c ∈ cs, isPart c = true) (hr : Stops r) :
    (cs ++ r).takeWhile isPart = cs ∧ (cs ++ r).dropWhile isPart = r := by
  have rest : r.takeWhile isPart = [] ∧ r.dropWhile isPart = r := by
    cases r with
    | nil => exact ⟨rfl, rfl⟩
    | cons c cs =>
      have hc : ¬isPart c = true := by
        rcases hr c rfl with rfl | rfl | rfl <;> decide
      exact ⟨List.takeWhile_cons_of_neg hc, List.dropWhile_cons_of_neg hc⟩
  rw [List.takeWhile_append_of_pos h, List.dropWhile_append_of_pos h, rest.1, rest.2, List.append_nil]
  exact ⟨rfl, rfl⟩

/-- A number is read from its sign and what follows this. -/
theorem readNumber?_append {cs ds : List Char} {neg : Bool} (h : ∀ c ∈ cs, isPart c = true)
    (hs : Numeral.splitSign cs = (neg, ds)) (hr : Stops r) : readNumber? (cs ++ r) =
      if ds.isEmpty then none
      else if ds.all Char.isDigit then
        some (int (if neg then -(Numeral.digitsValue ds : Int) else Numeral.digitsValue ds), r)
      else (Binary64.readDecimal? neg ds).map fun x => (float x, r) := by
  obtain ⟨number, rest⟩ := span_number h hr
  have parts : Numeral.splitSign ((cs ++ r).takeWhile isPart) = (neg, ds) := by rw [number, hs]
  have read : readNumber? (cs ++ r) =
      let p := Numeral.splitSign ((cs ++ r).takeWhile isPart)
      let behind := (cs ++ r).dropWhile isPart
      if p.2.isEmpty then none
      else if p.2.all Char.isDigit then
        some (int (if p.1 then -(Numeral.digitsValue p.2 : Int) else Numeral.digitsValue p.2), behind)
      else (Binary64.readDecimal? p.1 p.2).map fun x => (float x, behind) := rfl
  rw [read, parts, rest]

theorem readNumber?_ofInt (n : Int) (hr : Stops r) :
    readNumber? ((Numeral.ofInt n).toList ++ r) = some (.int n, r) := by
  have part : ∀ c ∈ (Numeral.ofInt n).toList, isPart c = true := by
    intro c hc
    rcases Numeral.mem_ofInt hc with h | h <;> simp [isPart, h]
  rw [readNumber?_append part (Numeral.splitSign_ofInt n) hr, if_neg (by simp [Nat.toDigits_ne_nil]), if_pos,
    Numeral.digitsValue_toDigits]
  · simp only [decide_eq_true_eq, Numeral.signed_natAbs]
  · exact List.all_eq_true.mpr fun c hc => Numeral.isDigit_of_mem_toDigits hc

theorem readNumber?_write {x : Binary64} (hx : x.IsFinite) (hr : Stops r) :
    readNumber? ((x.write Binary64.jsonStyle).toList ++ r) = some (.float x, r) := by
  have part : ∀ c ∈ (x.write Binary64.jsonStyle).toList, isPart c = true := by
    intro c hc
    rcases hx.isPart hc with h | h | h | h | h <;> simp [isPart, h]
  obtain ⟨c, hc, hd⟩ := hx.exists_mem_unsigned
  have fraction : ¬x.unsigned.all Char.isDigit = true := fun h => by
    rw [List.all_eq_true.mp h c hc] at hd
    cases hd
  have some_part : ¬x.unsigned.isEmpty = true := fun h => by
    rw [List.isEmpty_iff.mp h] at hc
    cases hc
  rw [readNumber?_append part (Binary64.splitSign_write hx.isNumber) hr, if_neg some_part, if_neg fraction,
    Binary64.readDecimal?_unsigned hx]
  rfl

/-- What does not begin like another value is read as a number. -/
theorem readValue?_number {c : Char} {cs : List Char} (h : c.isDigit = true ∨ c = '-') :
    readValue? (fuel + 1) (c :: cs) = readNumber? (c :: cs) := by
  have other : ¬IsBlank c ∧ c ≠ 'n' ∧ c ≠ 't' ∧ c ≠ 'f' ∧ c ≠ '"' ∧ c ≠ '[' ∧ c ≠ '\x7b' := by
    refine ⟨?_, ?_, ?_, ?_, ?_, ?_, ?_⟩
    · rintro (rfl | rfl | rfl | rfl) <;> revert h <;> decide
    all_goals rintro rfl; revert h; decide
  obtain ⟨hb, hn, ht, hf, hq, hl, ho⟩ := other
  rw [readValue?, skipBlanks_cons hb]
  split
  · next he => exact absurd (List.cons.inj he).1 hn
  · next he => exact absurd (List.cons.inj he).1 ht
  · next he => exact absurd (List.cons.inj he).1 hf
  · next he => exact absurd (List.cons.inj he).1 hq
  · next he => exact absurd (List.cons.inj he).1 hl
  · next he => exact absurd (List.cons.inj he).1 ho
  · rfl

/-- The text of a whole number begins with a digit or a minus. -/
theorem exists_ofInt (n : Int) : ∃ c cs, (Numeral.ofInt n).toList = c :: cs ∧ (c.isDigit = true ∨ c = '-') := by
  cases hcs : (Numeral.ofInt n).toList with
  | nil => exact absurd hcs (by simp [Numeral.toList_ofInt, Nat.toDigits_ne_nil])
  | cons c cs => exact ⟨c, cs, rfl, Numeral.mem_ofInt (hcs ▸ List.mem_cons_self)⟩

theorem readValue?_int (n : Int) (hr : Stops r) :
    readValue? (fuel + 1) ((Numeral.ofInt n).toList ++ r) = some (.int n, r) := by
  rw [← readNumber?_ofInt n hr]
  obtain ⟨c, cs, hcs, hc⟩ := exists_ofInt n
  rw [hcs]
  exact readValue?_number hc

theorem readValue?_float {x : Binary64} (hx : x.IsFinite) (hr : Stops r) :
    readValue? (fuel + 1) ((x.write Binary64.jsonStyle).toList ++ r) = some (.float x, r) := by
  rw [← readNumber?_write hx hr]
  obtain ⟨c, cs, hcs, hc⟩ := Binary64.exists_write hx
  rw [hcs]
  exact readValue?_number hc

/-! ## Values -/

/-- What begins like a number begins neither with a blank nor like the end of a list. -/
theorem not_blank_of_number {c : Char} (h : c.isDigit = true ∨ c = '-') : ¬IsBlank c ∧ c ≠ ']' := by
  refine ⟨?_, ?_⟩
  · rintro (rfl | rfl | rfl | rfl) <;> revert h <;> decide
  · rintro rfl
    revert h
    decide

/-- A value begins neither with a blank nor like the end of a list. -/
theorem renderChars_head (layout : Layout) {j : Wire} (hj : j.IsReadable) :
    ∃ c cs, renderChars layout j = c :: cs ∧ ¬IsBlank c ∧ c ≠ ']' := by
  cases j with
  | null => exact ⟨_, _, rfl, by decide, by decide⟩
  | bool b => cases b <;> exact ⟨_, _, rfl, by decide, by decide⟩
  | int n =>
    obtain ⟨c, cs, hcs, hc⟩ := exists_ofInt n
    exact ⟨c, cs, hcs, not_blank_of_number hc⟩
  | float x =>
    obtain ⟨c, cs, hcs, hc⟩ := Binary64.exists_write hj
    exact ⟨c, cs, hcs, not_blank_of_number hc⟩
  | text s => exact ⟨_, _, rfl, by decide, by decide⟩
  | list vs => exact ⟨_, _, rfl, by decide, by decide⟩
  | object ms => exact ⟨_, _, rfl, by decide, by decide⟩

theorem renderChars_pos (layout : Layout) {j : Wire} (hj : j.IsReadable) : 0 < (renderChars layout j).length := by
  obtain ⟨c, cs, h, -, -⟩ := renderChars_head layout hj
  rw [h, List.length_cons]
  omega

theorem join_cons_cons (between t u : List Char) (ts : List (List Char)) :
    join between (t :: u :: ts) = t ++ (between ++ join between (u :: ts)) := by
  rw [join, List.append_assoc]
  simp

variable {v : Wire} {vs : List Wire} {ms : List (Units × Wire)} {c : Char} {cs cs' : List Char} {name : Units}

theorem readValue?_list (hb : ¬IsBlank c) (hc : c ≠ ']') (h : readElements? fuel (c :: cs) = some (vs, r)) :
    readValue? (fuel + 1) ('[' :: c :: cs) = some (.list vs, r) := by
  rw [readValue?, skipBlanks_cons (by decide)]
  simp only [skipBlanks_cons hb]
  split
  · next he => exact absurd (List.cons.inj he).1 hc
  · rw [h]
    rfl

theorem readElements?_cons (h : readValue? fuel cs = some (v, ',' :: cs')) :
    readElements? (fuel + 1) cs = (readElements? fuel cs').map fun p => (v :: p.1, p.2) := by
  rw [readElements?, h]
  change ((readElements? fuel cs').bind fun p => some (v :: p.1, p.2)) = _
  cases readElements? fuel cs' <;> rfl

theorem readElements?_last (h : readValue? fuel cs = some (v, ']' :: cs')) :
    readElements? (fuel + 1) cs = some ([v], cs') := by
  rw [readElements?, h]
  rfl

theorem readValue?_object (h : readMembers? fuel ('"' :: cs) = some (ms, r)) :
    readValue? (fuel + 1) ('\x7b' :: '"' :: cs) = some (.object ms, r) := by
  have quote : ¬IsBlank '"' := by decide
  rw [readValue?, skipBlanks_cons (by decide)]
  simp only [skipBlanks_cons quote]
  split
  · next he => exact absurd (List.cons.inj he).1 (by decide)
  · rw [h]
    rfl

/-- The name of a member and its value, behind the name. -/
theorem readMembers?_named (hl : layout.IsPlain) (h : readValue? fuel cs = some (v, c :: cs'))
    (hc : c = ',' ∨ c = '\x7d') :
    readMembers? (fuel + 1) (renderText name ++ (layout.colon ++ cs)) =
      if c = ',' then (readMembers? fuel cs').map fun p => ((name, v) :: p.1, p.2) else some ([(name, v)], cs') := by
  obtain ⟨bs, hcolon, hbs⟩ := hl.colon
  obtain ⟨text, htext, hread⟩ := readText?_quoted (r := layout.colon ++ cs) name
  have colon : expect? [':'] (skipBlanks (layout.colon ++ cs)) = some (bs ++ cs) := by
    rw [hcolon, List.cons_append, skipBlanks_cons (by decide)]
    rfl
  have value : readValue? fuel (bs ++ cs) = some (v, c :: cs') := (readValue?_blanks hbs).trans h
  rw [htext, readMembers?, skipBlanks_cons (by decide)]
  simp only [hread, colon, value, bind, Option.bind]
  rcases hc with rfl | rfl
  · have comma : skipBlanks (',' :: cs') = ',' :: cs' := skipBlanks_cons (by decide)
    simp only [comma, if_true]
    cases readMembers? fuel cs' <;> rfl
  · rfl

mutual

/-- What is written of a readable value reads back as that value. -/
theorem readValue?_renderChars (hl : layout.IsPlain) (j : Wire) (hj : j.IsReadable) (fuel : Nat) (r : List Char)
    (hf : 2 * (renderChars layout j).length ≤ fuel) (hr : Stops r) :
    readValue? fuel (renderChars layout j ++ r) = some (j, r) := by
  obtain ⟨fuel, rfl⟩ : ∃ n, fuel = n + 1 := ⟨fuel - 1, by have := renderChars_pos layout hj; omega⟩
  cases j with
  | null => rfl
  | bool b => cases b <;> rfl
  | int n => rw [renderChars, readValue?_int n hr]
  | float x => rw [renderChars, readValue?_float hj hr]
  | text s =>
    obtain ⟨cs, hcs, hread⟩ := readText?_quoted (r := r) s
    rw [renderChars, hcs, readValue?, skipBlanks_cons (by decide)]
    simp only [hread, Option.map_some]
  | list vs =>
    have elements := readElements?_renderList hl vs hj fuel r
    cases vs with
    | nil => rfl
    | cons v vs =>
      obtain ⟨c, cs, hcs, hblank, hc⟩ := renderChars_head layout hj.1
      obtain ⟨cs', hcs'⟩ : ∃ cs', join layout.comma (renderList layout (v :: vs)) ++ ']' :: r = c :: cs' := by
        cases vs <;> rw [renderList, renderList, hcs] <;> exact ⟨_, rfl⟩
      simp only [renderChars, List.length_cons, List.length_append] at hf
      replace elements := elements (by omega) (by simp)
      rw [hcs'] at elements
      simp only [renderChars, List.cons_append, List.append_assoc, List.nil_append, hcs']
      exact readValue?_list hblank hc elements
  | object ms =>
    have members := readMembers?_renderMembers hl ms hj fuel r
    cases ms with
    | nil => rfl
    | cons m ms =>
      obtain ⟨name, v⟩ := m
      obtain ⟨cs', hcs'⟩ : ∃ cs', join layout.comma (renderMembers layout ((name, v) :: ms)) ++ '\x7d' :: r =
          '"' :: cs' := by
        cases ms <;> rw [renderMembers, renderMembers] <;> exact ⟨_, rfl⟩
      simp only [renderChars, List.length_cons, List.length_append] at hf
      replace members := members (by omega) (by simp)
      rw [hcs'] at members
      simp only [renderChars, List.cons_append, List.append_assoc, List.nil_append, hcs']
      exact readValue?_object members
termination_by structural j

theorem readElements?_renderList (hl : layout.IsPlain) (vs : List Wire) (hv : AreReadable vs) (fuel : Nat)
    (r : List Char) (hf : 2 * (join layout.comma (renderList layout vs)).length + 1 ≤ fuel) (hne : vs ≠ []) :
    readElements? fuel (join layout.comma (renderList layout vs) ++ ']' :: r) = some (vs, r) := by
  obtain ⟨fuel, rfl⟩ : ∃ n, fuel = n + 1 := ⟨fuel - 1, by omega⟩
  cases vs with
  | nil => exact absurd rfl hne
  | cons v vs =>
    have first := readValue?_renderChars hl v hv.1 fuel
    have others := readElements?_renderList hl vs hv.2 fuel r
    cases vs with
    | nil =>
      rw [renderList, renderList, join] at hf ⊢
      exact readElements?_last (first _ (by omega) (stops_cons (by simp) r))
    | cons w ws =>
      obtain ⟨bs, hcomma, hbs⟩ := hl.comma
      rw [renderList, renderList, join_cons_cons, ← renderList] at hf ⊢
      rw [hcomma, List.length_append, List.length_append, List.length_cons] at hf
      rw [hcomma] at others ⊢
      rw [List.append_assoc, List.append_assoc, List.cons_append,
        readElements?_cons (first _ (by omega) (stops_cons (by simp) _)), readElements?_blanks hbs,
        others (by omega) (by simp)]
      rfl
termination_by structural vs

theorem readMembers?_renderMembers (hl : layout.IsPlain) (ms : List (Units × Wire)) (hm : HaveReadable ms)
    (fuel : Nat) (r : List Char) (hf : 2 * (join layout.comma (renderMembers layout ms)).length + 1 ≤ fuel)
    (hne : ms ≠ []) :
    readMembers? fuel (join layout.comma (renderMembers layout ms) ++ '\x7d' :: r) = some (ms, r) := by
  obtain ⟨fuel, rfl⟩ : ∃ n, fuel = n + 1 := ⟨fuel - 1, by omega⟩
  cases ms with
  | nil => exact absurd rfl hne
  | cons m ms =>
    obtain ⟨name, v⟩ := m
    have first := readValue?_renderChars hl v hm.1 fuel
    have others := readMembers?_renderMembers hl ms hm.2 fuel r
    cases ms with
    | nil =>
      rw [renderMembers, renderMembers, join] at hf ⊢
      simp only [List.length_append] at hf
      rw [List.append_assoc, List.append_assoc,
        readMembers?_named hl (first _ (by omega) (stops_cons (by simp) r)) (.inr rfl), if_neg (by decide)]
    | cons n ns =>
      obtain ⟨other, w⟩ := n
      obtain ⟨bs, hcomma, hbs⟩ := hl.comma
      rw [renderMembers, renderMembers, join_cons_cons, ← renderMembers] at hf ⊢
      rw [hcomma] at hf others ⊢
      simp only [List.length_append, List.length_cons] at hf
      rw [List.append_assoc, List.append_assoc, List.append_assoc, List.append_assoc, List.cons_append,
        readMembers?_named hl (first _ (by omega) (stops_cons (by simp) _)) (.inl rfl), if_pos rfl,
        readMembers?_blanks hbs, others (by omega) (by simp)]
      rfl
termination_by structural ms

end

/-! ## Whole texts -/

theorem read?_render (hl : layout.IsPlain) {j : Wire} (hj : j.IsReadable) : read? (j.render layout) = some j := by
  have h := readValue?_renderChars hl j hj (2 * (renderChars layout j).length + 1) [] (by omega) stops_nil
  rw [List.append_nil] at h
  rw [read?, render, String.toList_ofList]
  dsimp only
  rw [h]
  rfl

end Wire

end LoanLedger
