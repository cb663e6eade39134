import LoanLedger.Json.Basic
import LoanLedger.Proofs.Binary64.Text
import LoanLedger.Proofs.Encodings

/-!
# JSON text is printable ASCII

* `Json.AllAscii cs` : the characters are printable ASCII, so there is no break of a line among them;
* `Wire.allAscii_escapeUnit` : so is what is written of any unit of a text;
* `Wire.allAscii_renderChars` : and so the text of any value, in a layout of such characters.
-/

namespace LoanLedger

open Text (Unit16 Units)

namespace Json

/-! ## Characters -/

/-- The character is printable ASCII, so it breaks no line. -/
def IsAscii (c : Char) : Prop := 0x20 ≤ c.toNat ∧ c.toNat ≤ 0x7E

instance : DecidablePred IsAscii := fun _ => inferInstanceAs (Decidable (_ ∧ _))

def AllAscii (cs : List Char) : Prop := ∀ c ∈ cs, IsAscii c

instance : DecidablePred AllAscii := fun cs => List.decidableBAll IsAscii cs

variable {cs ds : List Char} {c : Char}

theorem AllAscii.append (hc : AllAscii cs) (hd : AllAscii ds) : AllAscii (cs ++ ds) :=
  List.forall_mem_append.mpr ⟨hc, hd⟩

theorem AllAscii.cons (h : IsAscii c) (hc : AllAscii cs) : AllAscii (c :: cs) :=
  List.forall_mem_cons.mpr ⟨h, hc⟩

/-- Nothing but printable ASCII stands around commas and colons. -/
def Layout.IsAscii (layout : Layout) : Prop := AllAscii layout.comma ∧ AllAscii layout.colon

theorem spaced_isAscii : spaced.IsAscii := ⟨by decide, by decide⟩

end Json

namespace Wire

open Json (AllAscii IsAscii Layout)

variable {layout : Layout} {cs : List Char} {ts : List (List Char)} {c : Char}

theorem isAscii_hexDigit : ∀ n < 16, IsAscii (Text.hexDigit n) := by
  decide

theorem allAscii_hexChars (w n : Nat) : AllAscii (Text.hexChars w n) := by
  induction w generalizing n with
  | zero => intro c hc; cases hc
  | succ w ih => exact (ih (n / 16)).append (.cons (isAscii_hexDigit _ (Nat.mod_lt n (by decide))) (by decide))

theorem allAscii_unitEscape (u : Unit16) : AllAscii (unitEscape u) :=
  .cons (by decide) (.cons (by decide) (allAscii_hexChars 4 u.val))

theorem allAscii_escapeUnit (u : Unit16) : AllAscii (escapeUnit u) := by
  unfold escapeUnit
  dsimp only
  iterate 7
    split
    · decide
  split
  · next h =>
    simp only [Bool.and_eq_true, decide_eq_true_eq] at h
    have value : (Char.ofNat u.val).toNat = u.val := Text.toNat_ofNat (by omega)
    exact .cons (by rwa [IsAscii, value]) (by decide)
  · exact allAscii_unitEscape u

/-! ## Texts and numbers -/

theorem allAscii_renderText (s : Units) : AllAscii (renderText s) := by
  have escaped : AllAscii (s.flatMap escapeUnit) := by
    intro c hc
    obtain ⟨u, -, hu⟩ := List.mem_flatMap.mp hc
    exact allAscii_escapeUnit u c hu
  exact (AllAscii.cons (by decide) escaped).append (by decide)

theorem allAscii_join (hc : AllAscii cs) (hts : ∀ t ∈ ts, AllAscii t) : AllAscii (join cs ts) := by
  induction ts with
  | nil => intro c hc; cases hc
  | cons t ts ih =>
    obtain ⟨ht, hts⟩ := List.forall_mem_cons.mp hts
    cases ts with
    | nil => exact ht
    | cons u ts => exact (ht.append hc).append (ih hts)

theorem isAscii_digit (h : c.isDigit = true) : IsAscii c := by
  simp only [Char.isDigit, Bool.and_eq_true, decide_eq_true_eq, ge_iff_le, UInt32.le_iff_toNat_le] at h
  have low : 48 ≤ c.toNat := h.1
  have high : c.toNat ≤ 57 := h.2
  exact ⟨by omega, by omega⟩

theorem allAscii_ofInt (n : Int) : AllAscii (Numeral.ofInt n).toList := by
  intro c hc
  rcases Numeral.mem_ofInt hc with h | rfl
  · exact isAscii_digit h
  · decide

theorem allAscii_write (x : Binary64) : AllAscii (x.write Binary64.jsonStyle).toList := by
  intro c hc
  rcases Binary64.mem_write hc with (h | rfl | rfl | rfl | rfl) | h
  · exact isAscii_digit h
  · decide
  · decide
  · decide
  · decide
  · exact (by decide : AllAscii "-NaInfinity".toList) c h

/-! ## Values -/

mutual

/-- The text of a value is printable ASCII, whatever the texts in it hold. -/
theorem allAscii_renderChars (hl : layout.IsAscii) (w : Wire) : AllAscii (renderChars layout w) := by
  cases w with
  | null => exact (by decide : AllAscii "null".toList)
  | bool b =>
    cases b with
    | false => exact (by decide : AllAscii "false".toList)
    | true => exact (by decide : AllAscii "true".toList)
  | int n => exact allAscii_ofInt n
  | float x => exact allAscii_write x
  | text s => exact allAscii_renderText s
  | list vs =>
    rw [renderChars]
    exact (AllAscii.cons (by decide) (allAscii_join hl.1 (allAscii_renderList hl vs))).append (by decide)
  | object ms =>
    rw [renderChars]
    exact (AllAscii.cons (by decide) (allAscii_join hl.1 (allAscii_renderMembers hl ms))).append (by decide)
termination_by structural w

theorem allAscii_renderList (hl : layout.IsAscii) (vs : List Wire) : ∀ t ∈ renderList layout vs, AllAscii t := by
  cases vs with
  | nil => intro t ht; cases ht
  | cons v vs =>
    exact List.forall_mem_cons.mpr ⟨allAscii_renderChars hl v, allAscii_renderList hl vs⟩
termination_by structural vs

theorem allAscii_renderMembers (hl : layout.IsAscii) (ms : List (Units × Wire)) :
    ∀ t ∈ renderMembers layout ms, AllAscii t := by
  cases ms with
  | nil => intro t ht; cases ht
  | cons m ms =>
    obtain ⟨name, v⟩ := m
    have member := ((allAscii_renderText name).append hl.2).append (allAscii_renderChars hl v)
    exact List.forall_mem_cons.mpr ⟨member, allAscii_renderMembers hl ms⟩
termination_by structural ms

end

end Wire

end LoanLedger
