import LoanLedger.Proofs.Canonical

/-!
# Values in any order

* `Value.HasOwnTexts v` : the keys of each map in `v`, in lists and maps at any depth, are texts, none of them twice,
  and there are no tuples;
* `Json.ofValue_same` : of such values that are the same up to the order of entries, a style that sorts members makes
  the same JSON, or fails alike;
* `Json.canonical_text_eq_iff_same` : the canonical texts of two JSON values are equal exactly when the values are the
  same up to the order of entries.
-/

namespace LoanLedger

namespace Value

variable {w : Value} {vs : List Value} {es : List (Value × Value)}

/-! ## Values that are the same -/

theorem same_list (h : (list vs).Same w) : ∃ ws, w = list ws ∧ AllSame vs ws := by
  cases w with
  | list ws => exact ⟨ws, rfl, h⟩
  | null | bool | int | float | decimal | text | bytes | uuid | date | time | tag | tuple | set | map | other => cases h

theorem same_map (h : (map es).Same w) : ∃ fs gs, w = map fs ∧ gs.Perm fs ∧ EntriesSame es gs := by
  cases w with
  | map fs =>
    obtain ⟨gs, hp, hs⟩ := h
    exact ⟨fs, gs, rfl, hp, hs⟩
  | null | bool | int | float | decimal | text | bytes | uuid | date | time | tag | list | tuple | set | other =>
    cases h

/-! ## Keys that are texts -/

mutual

/-- The keys of each map are texts, none of them twice, and there are no tuples. -/
def HasOwnTexts : Value → Prop
  | list vs => HaveOwnTexts vs
  | tuple _ => False
  | map es => (AreTexts es ∧ (es.map (·.1)).Nodup) ∧ EntriesHaveOwnTexts es
  | _ => True

def HaveOwnTexts : List Value → Prop
  | [] => True
  | v :: vs => HasOwnTexts v ∧ HaveOwnTexts vs

def EntriesHaveOwnTexts : List (Value × Value) → Prop
  | [] => True
  | (_, v) :: es => HasOwnTexts v ∧ EntriesHaveOwnTexts es

end

mutual

theorem IsJson.hasOwnTexts (v : Value) (h : v.IsJson) : v.HasOwnTexts := by
  cases v with
  | list vs => exact AreJson.haveOwnTexts vs h
  | map es => exact ⟨isRecord_keys h, IsRecord.haveOwnTexts es h⟩
  | null | bool | int | float | text => trivial
  | decimal | bytes | uuid | date | time | tag | tuple | set | other => exact h.elim
termination_by structural v

theorem AreJson.haveOwnTexts (vs : List Value) (h : AreJson vs) : HaveOwnTexts vs := by
  cases vs with
  | nil => trivial
  | cons v vs => exact ⟨IsJson.hasOwnTexts v h.1, AreJson.haveOwnTexts vs h.2⟩
termination_by structural vs

theorem IsRecord.haveOwnTexts (es : List (Value × Value)) (h : IsRecord es) : EntriesHaveOwnTexts es := by
  cases es with
  | nil => trivial
  | cons e es =>
    obtain ⟨k, v⟩ := e
    exact ⟨IsJson.hasOwnTexts v h.2.2.1, IsRecord.haveOwnTexts es h.2.2.2⟩
termination_by structural es

end

end Value

namespace Json

variable {style : Style}

/-! ## Sorted members -/

/-- Where no text is there twice, the order of the entries does not matter for sorted members. -/
theorem sortedMembers?_eq_of_perm {es fs : List (Value × Except Error Json)} (ht : AreTexts es)
    (hn : (es.map (·.1)).Nodup) (hp : es.Perm fs) : sortedMembers? true es = sortedMembers? true fs := by
  unfold sortedMembers?
  rw [if_pos rfl, if_pos rfl, sortKeys?_eq_of_perm ht hn hp]

theorem keys_ofEntries (es : List (Value × Value)) : (ofEntries style es).map (·.1) = es.map (·.1) := by
  rw [ofEntries_eq_map, List.map_map]
  rfl

mutual

/-- Values that are the same have the same JSON where members are sorted, or neither has any. -/
theorem ofValue_same (hs : style.isSorted = true) (v : Value) (hv : v.HasOwnTexts) {w : Value} (h : v.Same w) :
    ofValue style v = ofValue style w := by
  cases v with
  | list vs =>
    obtain ⟨ws, rfl, h⟩ := Value.same_list h
    rw [ofValue, ofValue, ofValues_same hs vs hv h]
  | map es =>
    obtain ⟨fs, gs, rfl, hp, h⟩ := Value.same_map h
    obtain ⟨⟨texts, distinct⟩, hv⟩ := hv
    have same := ofEntries_same hs es hv h
    have texts : AreTexts (ofEntries style es) := areTexts_ofEntries texts
    have distinct : ((ofEntries style es).map (·.1)).Nodup := by rwa [keys_ofEntries]
    have perm : (ofEntries style es).Perm (ofEntries style fs) := by
      rw [same, ofEntries_eq_map, ofEntries_eq_map]
      exact hp.map _
    rw [ofValue, ofValue, hs, sortedMembers?_eq_of_perm texts distinct perm]
  | null | bool | int | float | decimal | text | bytes | uuid | date | time | tag | tuple | set | other =>
    have same : _ = w := h
    rw [same]
termination_by structural v

theorem ofValues_same (hs : style.isSorted = true) (vs : List Value) (hv : Value.HaveOwnTexts vs) {ws : List Value}
    (h : Value.AllSame vs ws) : ofValues style vs = ofValues style ws := by
  cases vs with
  | nil =>
    cases ws with
    | nil => rfl
    | cons => exact h.elim
  | cons v vs =>
    cases ws with
    | nil => exact h.elim
    | cons w ws => rw [ofValues, ofValues, ofValue_same hs v hv.1 h.1, ofValues_same hs vs hv.2 h.2]
termination_by structural vs

theorem ofEntries_same (hs : style.isSorted = true) (es : List (Value × Value)) (he : Value.EntriesHaveOwnTexts es)
    {gs : List (Value × Value)} (h : Value.EntriesSame es gs) : ofEntries style es = ofEntries style gs := by
  cases es with
  | nil =>
    cases gs with
    | nil => rfl
    | cons => exact h.elim
  | cons e es =>
    obtain ⟨k, v⟩ := e
    cases gs with
    | nil => exact h.elim
    | cons g gs =>
      obtain ⟨k', w⟩ := g
      obtain ⟨rfl, first, others⟩ := h
      rw [ofEntries, ofEntries, ofValue_same hs v he.1 first, ofEntries_same hs es he.2 others]
termination_by structural es

end

/-! ## The canonical text -/

/-- Canonical JSON is canonical. JSON values that are the same up to the order of entries have the same canonical
JSON, or neither can be written; and two that can be written have the same canonical text only if they are the same
so. -/
theorem canonical_text_eq_iff_same (v w : Value) (hv : v.IsJson) (hv' : v.IsProper) (hw' : w.IsProper) :
    (v.Same w → ofValue canonical v = ofValue canonical w) ∧
    ∀ j k, ofValue canonical v = .ok j → ofValue canonical w = .ok k →
      (j.render compact = k.render compact ↔ v.Same w) := by
  have ordered : v.Same w → ofValue canonical v = ofValue canonical w := ofValue_same rfl v hv.hasOwnTexts
  refine ⟨ordered, ?_⟩
  intro j k hj hk
  constructor
  · intro texts
    have proper := isProper_of_ofValue canonical_writesTexts v hv'.hasNumbers hj
    have proper' := isProper_of_ofValue canonical_writesTexts w hw'.hasNumbers hk
    obtain rfl := render_inj compact_isPlain proper proper' texts
    exact same_of_ofValue v hv' hw' hj hk
  · intro same
    rw [ordered same, hk] at hj
    cases hj
    rfl

/-- A payload with a text beyond the first plane, its entries at both depths as they came or turned around. -/
def payload (isTurned : Bool) : Value :=
  let turn (es : Entries) := if isTurned then es.reverse else es
  .map (turn [(.text "b", .int (-1)), (.text "a", .list [.null,
    .map (turn [(.text "x", .text "\"😀\""), (.text "\n", .bool true)])])])

theorem payload_isJson : (payload false).IsJson := by
  simp [payload, Value.IsJson, Value.AreJson, Value.IsRecord]

theorem payload_isProper (isTurned : Bool) : (payload isTurned).IsProper := by
  cases isTurned <;> simp [payload, Value.IsProper, Value.AreProper, Value.HaveProper]

theorem payload_same : (payload false).Same (payload true) := by
  refine ⟨_, .swap _ _ _, rfl, rfl, rfl,
    ⟨rfl, ⟨_, .swap _ _ _, rfl, rfl, rfl, rfl, trivial⟩, trivial⟩, trivial⟩

/-- A payload and its turned one have the same canonical text; a truth value and the number one have not. -/
theorem canonical_text_eq_iff_same_of_payload :
    ((payload false).IsJson ∧ (payload false).IsProper ∧ (payload true).IsProper ∧
      (payload false).Same (payload true) ∧
      ∃ j, ofValue canonical (payload false) = .ok j ∧ ofValue canonical (payload true) = .ok j) ∧
    (Value.bool true).IsJson ∧ (Value.bool true).IsProper ∧ (Value.int 1).IsProper ∧
      render compact (bool true) ≠ render compact (int 1) := by
  have written : (ofValue canonical (payload false)).toOption.isSome = true := by decide +kernel
  obtain ⟨j, hj⟩ := Option.isSome_iff_exists.mp written
  have hj := ok_of_toOption hj
  have ordered :=
    (canonical_text_eq_iff_same _ _ payload_isJson (payload_isProper false) (payload_isProper true)).1 payload_same
  have apart := (canonical_text_eq_iff_same (.bool true) (.int 1) trivial trivial trivial).2 (.bool true) (.int 1) rfl
    (ofValue_int_of_fits (by decide))
  refine ⟨⟨payload_isJson, payload_isProper false, payload_isProper true, payload_same, j, hj, ordered ▸ hj⟩,
    trivial, trivial, trivial, ?_⟩
  intro texts
  cases apart.mp texts

end Json

end LoanLedger
