import LoanLedger.Numeral.Basic
import LoanLedger.Proofs.Binary64.Text
import LoanLedger.Proofs.Encodings
import LoanLedger.Text.Quoted
import LoanLedger.Workflow.Checksum

/-!
# Loaded documents

* `Text.byteAt? cs` : the byte that stands first between quotes, and what follows;
* `byteAt?_quotedByte` : each byte reads back, so that no two byte strings are quoted alike (`quotedBytes_inj`);
* `Numeral.toInt?_quotedBytes` : and no quoted byte string is a number;
* `Value.IsLoaded v` : `v` is made of what a document can write: null, truth values, numbers, texts, bytes, days, times
  and sets; lists of such; and maps of such under scalars as keys, no two of them the same;
* `IsWord s` : small letters and underscores, not the name of a number;
* `keyName?_word` : of the keys of a document only the text itself has a word as its name; the truth value that a bare
  `on` is read as has the name `on`.
-/

/-! ## Quoted byte strings -/

namespace LoanLedger.Text

/-- The byte that stands first between quotes, and what follows. -/
def byteAt? : List Char → Option (Nat × List Char)
  | '\\' :: 't' :: cs => some (9, cs)
  | '\\' :: 'n' :: cs => some (10, cs)
  | '\\' :: 'r' :: cs => some (13, cs)
  | '\\' :: 'x' :: a :: b :: cs => (ofHexChars? [a, b]).map fun n => (n, cs)
  | '\\' :: c :: cs => some (c.toNat, cs)
  | c :: cs => some (c.toNat, cs)
  | [] => none

theorem byteAt?_numericEscape {n : Nat} (hn : n < 0x100) (cs : List Char) :
    byteAt? (numericEscape n ++ cs) = some (n, cs) := by
  have value := ofHexChars?_hexChars 2 n
  obtain ⟨a, b, hab⟩ : ∃ a b, hexChars 2 n = [a, b] := ⟨_, _, rfl⟩
  have below : n % 16 ^ 2 = n := Nat.mod_eq_of_lt hn
  rw [numericEscape, if_pos hn, hab]
  rw [hab, below] at value
  simp [byteAt?, value]

theorem byteAt?_quotedChar {q c : Char} (hq : q = '"' ∨ q = '\'') (hc : c.toNat < 0x100) (cs : List Char) :
    byteAt? (quotedChar q c ++ cs) = some (c.toNat, cs) := by
  unfold quotedChar
  split
  · next he =>
    have plain : c ≠ 't' ∧ c ≠ 'n' ∧ c ≠ 'r' ∧ c ≠ 'x' := by
      rcases hq with rfl | rfl <;> simp at he <;> rcases he with rfl | rfl <;> decide
    simp [byteAt?, plain]
  · next he =>
    split
    · next ht => rw [ht]; rfl
    · split
      · next hn => rw [hn]; rfl
      · split
        · next hr => rw [hr]; rfl
        · split
          · have plain : c ≠ '\\' := fun h => he (by simp [h])
            simp [byteAt?, plain]
          · exact byteAt?_numericEscape hc cs

theorem byteAt?_quotedByte {q : Char} (hq : q = '"' ∨ q = '\'') (b : UInt8) (cs : List Char) :
    byteAt? (quotedByte q b ++ cs) = some (b.toNat, cs) := by
  have code := toNat_ofNat b.toNat_lt
  have below : (Char.ofNat b.toNat).toNat < 0x100 := by
    rw [code]
    exact b.toNat_lt
  unfold quotedByte
  dsimp only
  split
  · rw [byteAt?_quotedChar hq below, code]
  · exact byteAt?_numericEscape b.toNat_lt cs

theorem quotedBytes_tell {q : Char} (hq : q = '"' ∨ q = '\'') {bs bs' : List UInt8}
    (h : bs.flatMap (quotedByte q) = bs'.flatMap (quotedByte q)) : bs = bs' := by
  induction bs generalizing bs' with
  | nil =>
    cases bs' with
    | nil => rfl
    | cons b bs' =>
      have read := byteAt?_quotedByte hq b (bs'.flatMap (quotedByte q))
      rw [← List.flatMap_cons, ← h] at read
      cases read
  | cons b bs ih =>
    have read := byteAt?_quotedByte hq b (bs.flatMap (quotedByte q))
    rw [← List.flatMap_cons, h] at read
    cases bs' with
    | nil => cases read
    | cons b' bs' =>
      rw [List.flatMap_cons, byteAt?_quotedByte hq] at read
      obtain ⟨hb, hbs⟩ := Prod.mk.inj (Option.some.inj read)
      rw [UInt8.toNat_inj.mp hb, ih hbs.symm]

theorem quoteFor_eq (cs : List Char) : quoteFor cs = '"' ∨ quoteFor cs = '\'' := by
  unfold quoteFor
  split
  · exact .inl rfl
  · exact .inr rfl

theorem quotedBytes_inj {bs bs' : List UInt8} (h : quotedBytes bs = quotedBytes bs') : bs = bs' := by
  have chars := String.ofList_injective h
  obtain ⟨quote, inside⟩ := List.cons.inj (List.cons.inj chars).2
  rw [← quote] at inside
  exact quotedBytes_tell (quoteFor_eq _) (List.append_cancel_right inside)

end LoanLedger.Text

namespace LoanLedger.Numeral

theorem head_trimPlain {c : Char} (hc : isPlainBlank c = false) (cs : List Char) :
    ∃ ds, trimPlain (c :: cs) = c :: ds := by
  unfold trimPlain
  rw [List.dropWhile_cons_of_neg (by simp [hc]), List.reverse_cons, List.dropWhile_append]
  split
  · exact ⟨[], by simp [hc]⟩
  · exact ⟨_, by rw [List.reverse_append]; rfl⟩

/-- A quoted byte string is no number: it begins with a letter. -/
theorem toInt?_quotedBytes (bs : List UInt8) : toInt? (Text.quotedBytes bs) = .error .malformed := by
  obtain ⟨cs, hcs⟩ : ∃ cs, (Text.quotedBytes bs).toList = 'b' :: cs := by
    rw [Text.quotedBytes, String.toList_ofList]
    exact ⟨_, rfl⟩
  have first : plain ('b' :: cs) = 'b' :: plain cs := rfl
  obtain ⟨ds, hds⟩ := head_trimPlain (c := 'b') rfl (plain cs)
  unfold toInt?
  rw [hcs, first, hds]
  have unsigned : splitSign ('b' :: ds) = (false, 'b' :: ds) := rfl
  have joined : joinDigits Char.isDigit false ('b' :: ds) = (joinDigits Char.isDigit false ds).map ('b' :: ·) := by
    rw [joinDigits]
    · rfl
    all_goals simp
  rw [unsigned]
  dsimp only
  rw [joined]
  cases joinDigits Char.isDigit false ds with
  | none => rfl
  | some es => rfl

end LoanLedger.Numeral

/-! ## What a document can write -/

namespace LoanLedger

namespace Value

/-- A scalar that can be the key of a map. -/
def IsLoadedKey : Value → Prop
  | null | bool _ | int _ | text _ | bytes _ | date _ | time _ => True
  | float x => x.IsNumber
  | _ => False

mutual

/-- A value that a document can write. -/
def IsLoaded : Value → Prop
  | null | bool _ | int _ | text _ | bytes _ | date _ | time _ | set _ => True
  | float x => x.IsNumber
  | list vs | tuple vs => AreLoaded vs
  | map es => HaveLoaded es
  | decimal _ | uuid _ | tag _ | other _ => False

def AreLoaded : List Value → Prop
  | [] => True
  | v :: vs => IsLoaded v ∧ AreLoaded vs

def HaveLoaded : List (Value × Value) → Prop
  | [] => True
  | (k, v) :: es => (IsLoadedKey k ∧ ∀ p ∈ es, k.sameKey p.1 = false) ∧ IsLoaded v ∧ HaveLoaded es

end

theorem areLoaded_iff {vs : List Value} : AreLoaded vs ↔ ∀ v ∈ vs, v.IsLoaded := by
  induction vs with
  | nil => simp [AreLoaded]
  | cons v vs ih => simp [AreLoaded, ih]

theorem haveLoaded_iff {es : List (Value × Value)} : HaveLoaded es ↔
    (∀ p ∈ es, p.1.IsLoadedKey ∧ p.2.IsLoaded) ∧ es.Pairwise fun p q => p.1.sameKey q.1 = false := by
  induction es with
  | nil => simp [HaveLoaded]
  | cons e es ih =>
    obtain ⟨k, v⟩ := e
    simp only [HaveLoaded, ih, List.forall_mem_cons, List.pairwise_cons]
    exact ⟨fun ⟨⟨hk, hd⟩, hv, hes, hp⟩ => ⟨⟨⟨hk, hv⟩, hes⟩, hd, hp⟩,
      fun ⟨⟨⟨hk, hv⟩, hes⟩, hd, hp⟩ => ⟨⟨hk, hd⟩, hv, hes, hp⟩⟩

end Value

/-! ## Words -/

/-- Small letters and underscores, not the name of a number. -/
def IsWord (s : String) : Prop :=
  (s.toList.all fun c => c.isLower || c == '_') = true ∧ s ≠ "nan" ∧ s ≠ "inf"

instance (s : String) : Decidable (IsWord s) :=
  inferInstanceAs (Decidable (_ ∧ _))

theorem not_isWord_of_mem {s : String} {c : Char} (hc : c ∈ s.toList) (h : c.isLower = false) (h' : c ≠ '_') :
    ¬ IsWord s := fun hs => by
  have part := List.all_eq_true.mp hs.1 c hc
  rw [h, Bool.false_or, beq_iff_eq] at part
  exact h' part

theorem isLower_of_isDigit {c : Char} (h : c.isDigit = true) : c.isLower = false ∧ c ≠ '_' := by
  have lower : c.isLower = (decide (97 ≤ c.val) && decide (c.val ≤ 122)) := rfl
  have digit : c.val.toNat ≤ 57 := toNat_le_of_isDigit h
  have below : ¬ 97 ≤ c.val := by
    rw [UInt32.le_iff_toNat_le]
    simp at digit ⊢
    omega
  refine ⟨by rw [lower, decide_eq_false below, Bool.false_and], ?_⟩
  rintro rfl
  simp at digit

theorem Binary64.not_isWord_write (x : Binary64) : ¬ IsWord (x.write plainStyle) := by
  cases x with
  | nan => exact fun h => h.2.1 rfl
  | infinity neg =>
    cases neg with
    | false => exact fun h => h.2.2 rfl
    | true => decide
  | finite neg m e =>
    have body : ∃ c ∈ unsigned (finite neg m e), c.isLower = false ∧ c ≠ '_' := by
      rw [unsigned]
      split
      · exact ⟨'.', by decide, by decide⟩
      · rcases exists_mem_writeDigits (shortest m e).1 (shortest m e).2 with hc | ⟨-, hc | hc⟩ <;>
          exact ⟨_, hc, by decide⟩
    obtain ⟨c, hc, hl, hu⟩ := body
    refine not_isWord_of_mem (c := c) ?_ hl hu
    rw [write, String.toList_ofList]
    cases neg with
    | false => exact hc
    | true => exact List.mem_cons_of_mem _ hc

/-! ## Names of keys -/

namespace Value

variable {k : Value} {s : String}

/-- No word is the label of another key than a text. -/
theorem not_isWord_label (hk : k.IsLoadedKey) (ht : ∀ s, k ≠ text s) : ¬ IsWord k.label := by
  cases k with
  | null => decide
  | bool b => cases b <;> decide
  | int n =>
    have digits : (Numeral.ofInt n).toList ≠ [] := by simp [Numeral.toList_ofInt, Nat.toDigits_ne_nil]
    obtain ⟨c, hc⟩ := List.exists_mem_of_ne_nil _ digits
    rcases Numeral.mem_ofInt hc with hd | rfl
    · exact not_isWord_of_mem hc (isLower_of_isDigit hd).1 (isLower_of_isDigit hd).2
    · exact not_isWord_of_mem hc rfl (by decide)
  | float x => exact x.not_isWord_write
  | text s => exact absurd rfl (ht s)
  | bytes bs =>
    have hc : Text.quoteFor (bs.map fun b => Char.ofNat b.toNat) ∈ (Text.quotedBytes bs).toList := by
      simp [Text.quotedBytes]
    rcases Text.quoteFor_eq (bs.map fun b => Char.ofNat b.toNat) with h | h <;> rw [h] at hc <;>
      exact not_isWord_of_mem hc (by decide) (by decide)
  | date d =>
    exact not_isWord_of_mem (c := '-') (by simp [label, Calendar.Date.iso, Calendar.Date.isoChars])
      (by decide) (by decide)
  | time t =>
    exact not_isWord_of_mem (c := '-')
      (by simp [label, Calendar.Timestamp.spaced, Calendar.Timestamp.isoCharsWith, Calendar.Date.isoChars]) (by decide)
      (by decide)
  | decimal | uuid | tag | list | tuple | set | map | other => exact hk.elim

theorem isWritable_of_largestInt {v : Value} (h : v.largestInt = 0) : v.isWritable = true := by
  have some : ∀ n, 0 < Nat.pow 10 n := fun n => Nat.pow_pos (Nat.succ_pos 9)
  rw [isWritable, h]
  exact decide_eq_true (some Numeral.digitLimit)

theorem isWritable_eq_false {v : Value} : v.isWritable = false ↔ Nat.pow 10 Numeral.digitLimit ≤ v.largestInt := by
  rw [isWritable, decide_eq_false_iff_not, Nat.not_lt]

theorem isWritable_mono {v w : Value} (h : v.largestInt ≤ w.largestInt) (hv : v.isWritable = false) :
    w.isWritable = false :=
  isWritable_eq_false.mpr (Nat.le_trans (isWritable_eq_false.mp hv) h)

theorem label?_error {v : Value} {e : Numeral.Error} (h : v.label? = .error e) : v.isWritable = false := by
  unfold label? at h
  split at h
  · cases h
  · next hw => exact eq_false_of_ne_true hw

theorem label?_text (s : String) : (text s).label? = .ok s := by
  rw [label?, isWritable_of_largestInt rfl, if_pos rfl]
  rfl

theorem keyName?_text (s : String) : Workflow.keyName? (text s) = .ok s := by
  unfold Workflow.keyName?
  dsimp only
  rw [label?_text]

theorem label?_ok (h : k.label? = .ok s) : s = k.label := by
  unfold label? at h
  split at h <;> cases h
  rfl

/-- The name of a key is its label, but for the truth value that a bare `on` is read as. -/
theorem keyName?_ok (h : Workflow.keyName? k = .ok s) : k = bool true ∧ s = "on" ∨ s = k.label := by
  unfold Workflow.keyName? at h
  split at h
  · cases h
    exact .inl ⟨rfl, rfl⟩
  · split at h
    · next hl =>
      cases h
      exact .inr (label?_ok hl)
    · cases h

/-- Of the keys of a document only the text itself has a word as its name, and a bare `on`. -/
theorem keyName?_word (hk : k.IsLoadedKey) (hs : IsWord s) (h : Workflow.keyName? k = .ok s) :
    k = text s ∨ k = bool true ∧ s = "on" := by
  rcases keyName?_ok h with on | rfl
  · exact .inr on
  · by_cases ht : ∃ t, k = text t
    · obtain ⟨t, rfl⟩ := ht
      exact .inl rfl
    · exact absurd hs (not_isWord_label hk fun t h => ht ⟨t, h⟩)

end Value

end LoanLedger
