import LoanLedger.Proofs.Writing

/-!
# Stored entries have a content

* `Entries.forall_ofPairs`, `Entries.nodup_ofPairs` : what holds of the pairs of a list holds when they are put into a
  map, and no text is a key twice there;
* `Json.IsShort j` : no whole number of `j` has more digits than can be written; `isShort_of_ofValue` : so it is
  for what is stored;
* `ofValue_toValue` : what is read back has JSON in every style;
* `Entry.content_of_stored` : so the row of an entry with a tag has a content to be hashed, whatever its attributes.
-/

namespace LoanLedger

/-! ## Pairs that are put into a map -/

namespace Entries

variable {P Q : Value → Prop} {es ps : Entries} {k v : Value} {s t : String}

theorem forall_put (h : ∀ p ∈ es, P p.1 ∧ Q p.2) (hk : P k) (hv : Q v) :
    ∀ p ∈ es.put k v, P p.1 ∧ Q p.2 := by
  induction es with
  | nil => exact List.forall_mem_singleton.mpr ⟨hk, hv⟩
  | cons e es ih =>
    obtain ⟨he, hes⟩ := List.forall_mem_cons.mp h
    unfold put
    split
    · exact List.forall_mem_cons.mpr ⟨⟨he.1, hv⟩, hes⟩
    · exact List.forall_mem_cons.mpr ⟨he, ih hes⟩

/-- What holds of all keys and of all values holds when the pairs are put into a map one after the other. -/
theorem forall_ofPairs {ps : List (Value × Value)} (h : ∀ p ∈ ps, P p.1 ∧ Q p.2) :
    ∀ p ∈ ofPairs ps, P p.1 ∧ Q p.2 := by
  have grown : ∀ (ps es : Entries), (∀ p ∈ ps, P p.1 ∧ Q p.2) → (∀ p ∈ es, P p.1 ∧ Q p.2) →
      ∀ p ∈ ps.foldl (fun es p => Entries.put es p.1 p.2) es, P p.1 ∧ Q p.2 := by
    intro ps
    induction ps with
    | nil => exact fun es _ hes => hes
    | cons p ps ih =>
      intro es h hes
      obtain ⟨hp, hps⟩ := List.forall_mem_cons.mp h
      exact ih _ hps (forall_put hes hp.1 hp.2)
  exact grown ps [] h (fun p hp => nomatch hp)

theorem sameKey_text (s t : String) : (Value.text s).sameKey (.text t) = (s == t) := by
  simp [Value.sameKey, Value.text?]

theorem areTexts_put (h : AreTexts es) : AreTexts (es.put (.text s) v) := fun p hp =>
  (forall_put (P := fun k => ∃ s, k = .text s) (Q := fun _ => True) (fun p hp => ⟨h p hp, trivial⟩) ⟨s, rfl⟩
    trivial p hp).1

theorem areTexts_ofPairs (h : AreTexts ps) : AreTexts (ofPairs ps) := fun p hp =>
  (forall_ofPairs (P := fun k => ∃ s, k = .text s) (Q := fun _ => True) (fun p hp => ⟨h p hp, trivial⟩) p hp).1

theorem nodup_put (h : AreTexts es) (hn : (es.map (·.1)).Nodup) : ((es.put (.text s) v).map (·.1)).Nodup := by
  induction es with
  | nil => exact List.nodup_cons.mpr ⟨List.not_mem_nil, List.nodup_nil⟩
  | cons e es ih =>
    obtain ⟨k, w⟩ := e
    obtain ⟨t, rfl⟩ := h (k, w) List.mem_cons_self
    have rest : AreTexts es := h.mono fun p hp => List.mem_cons_of_mem _ hp
    obtain ⟨hnew, hn⟩ := List.nodup_cons.mp hn
    rw [put, sameKey_text]
    by_cases ht : t = s
    · rw [ht, beq_self_eq_true, if_pos rfl]
      exact List.nodup_cons.mpr ⟨ht ▸ hnew, hn⟩
    · rw [beq_false_of_ne ht, if_neg Bool.false_ne_true]
      refine List.nodup_cons.mpr ⟨fun hm => ?_, ih rest hn⟩
      obtain ⟨p, hp, he⟩ := List.mem_map.mp hm
      have old : p.1 = .text s ∨ p.1 ∈ es.map (·.1) := by
        have :=
          (forall_put (P := fun k => k = .text s ∨ k ∈ es.map (·.1)) (Q := fun _ => True) (k := .text s) (v := v)
            (fun p hp => ⟨.inr (List.mem_map_of_mem hp), trivial⟩) (.inl rfl) trivial) p hp
        exact this.1
      rw [he] at old
      rcases old with old | old
      · exact ht (Value.text.inj old)
      · exact hnew old

theorem nodup_ofPairs (h : AreTexts ps) : ((ofPairs ps).map (·.1)).Nodup := by
  have kept : ∀ (ps es : Entries), AreTexts es → AreTexts ps → (es.map (·.1)).Nodup →
      ((ps.foldl (fun es p => Entries.put es p.1 p.2) es).map (·.1)).Nodup := by
    intro ps
    induction ps with
    | nil => exact fun _ _ _ hn => hn
    | cons p ps ih =>
      intro es hes hps hn
      obtain ⟨k, w⟩ := p
      obtain ⟨t, rfl⟩ := hps (k, w) List.mem_cons_self
      exact ih _ (areTexts_put hes) (hps.mono fun p hp => List.mem_cons_of_mem _ hp) (nodup_put hes hn)
  exact kept ps [] (fun _ hp => absurd hp List.not_mem_nil) h List.nodup_nil

end Entries

/-! ## JSON that can be written -/

namespace Json

variable {style : Style}

mutual

/-- No whole number has more digits than can be written. -/
def IsShort : Json → Prop
  | int n => n.natAbs < Nat.pow 10 Numeral.digitLimit
  | list js => AreShort js
  | object ms => HaveShort ms
  | _ => True

/-- No whole number of some JSON values has more digits than can be written. -/
def AreShort : List Json → Prop
  | [] => True
  | j :: js => IsShort j ∧ AreShort js

/-- No whole number of some members has more digits than can be written. -/
def HaveShort : List (String × Json) → Prop
  | [] => True
  | (_, j) :: ms => IsShort j ∧ HaveShort ms

end

mutual

/-- What is stored has been written. -/
theorem isShort_of_ofValue (v : Value) {j : Json} (h : ofValue storage v = .ok j) : j.IsShort := by
  cases v with
  | null | bool | float | text | tag => cases h; trivial
  | int n =>
    unfold ofValue at h
    by_cases hn : n.natAbs < Nat.pow 10 Numeral.digitLimit
    · rw [if_pos hn] at h
      cases h
      exact hn
    · rw [if_neg hn] at h
      cases h
  | list vs | tuple vs =>
    rw [ofValue] at h
    obtain ⟨js, hj, rfl⟩ := map_ok h
    exact areShort_of_ofValues vs hj
  | map es =>
    obtain ⟨ms, hm, rfl⟩ := ofValue_map_ok h
    exact haveShort_of_ofEntries es hm
  | decimal | bytes | uuid | date | time | set | other => cases h
termination_by structural v

theorem areShort_of_ofValues (vs : List Value) {js : List Json} (h : ofValues storage vs = .ok js) :
    AreShort js := by
  cases vs with
  | nil => cases h; trivial
  | cons v vs =>
    obtain ⟨j, js, rfl, hj, hjs⟩ := ofValues_cons_ok h
    exact ⟨isShort_of_ofValue v hj, areShort_of_ofValues vs hjs⟩
termination_by structural vs

theorem haveShort_of_ofEntries (es : List (Value × Value)) {ms : List (String × Json)}
    (h : members? (ofEntries storage es) = .ok ms) : HaveShort ms := by
  cases es with
  | nil => cases h; trivial
  | cons e es =>
    obtain ⟨k, v⟩ := e
    rw [ofEntries] at h
    obtain ⟨name, j, ms, rfl, -, hj, hm⟩ := members?_cons_ok h
    exact ⟨isShort_of_ofValue v hj, haveShort_of_ofEntries es hm⟩
termination_by structural es

end

/-- The pairs have texts as keys, and values that have JSON. -/
def AreWritable (style : Style) (ps : List (Value × Value)) : Prop :=
  ∀ p ∈ ps, (∃ s, p.1 = .text s) ∧ ∃ j, ofValue style p.2 = .ok j

namespace AreWritable

variable {ps : Entries} {p : Value × Value}

theorem cons (hp : (∃ s, p.1 = .text s) ∧ ∃ j, ofValue style p.2 = .ok j) (h : AreWritable style ps) :
    AreWritable style (p :: ps) :=
  List.forall_mem_cons.mpr ⟨hp, h⟩

theorem ofPairs (h : AreWritable style ps) : AreWritable style (Entries.ofPairs ps) :=
  Entries.forall_ofPairs (P := fun k => ∃ s, k = .text s) (Q := fun v => ∃ j, ofValue style v = .ok j) h

end AreWritable

mutual

/-- What is read back has JSON in every style. -/
theorem ofValue_toValue (style : Style) (j : Json) (h : j.IsShort) : ∃ j', ofValue style j.toValue = .ok j' := by
  cases j with
  | null | bool | float | text => rw [toValue]; exact ⟨_, rfl⟩
  | int n =>
    have hn : n.natAbs < Nat.pow 10 Numeral.digitLimit := h
    rw [toValue, ofValue, if_pos hn]
    exact ⟨_, rfl⟩
  | list js =>
    obtain ⟨js', hjs⟩ := ofValues_toValues style js h
    rw [toValue, ofValue, hjs]
    exact ⟨_, rfl⟩
  | object ms =>
    rw [toValue]
    exact ofValue_map (areWritable_toPairs style ms h).ofPairs
termination_by structural j

theorem ofValues_toValues (style : Style) (js : List Json) (h : AreShort js) :
    ∃ js', ofValues style (toValues js) = .ok js' := by
  cases js with
  | nil => exact ⟨[], by rw [toValues, ofValues]⟩
  | cons j js =>
    obtain ⟨j', hj⟩ := ofValue_toValue style j h.1
    obtain ⟨js', hjs⟩ := ofValues_toValues style js h.2
    exact ⟨j' :: js', by rw [toValues, ofValues, hj, hjs]; rfl⟩
termination_by structural js

theorem areWritable_toPairs (style : Style) (ms : List (String × Json)) (h : HaveShort ms) :
    AreWritable style (toPairs ms) := by
  cases ms with
  | nil =>
    rw [toPairs]
    exact fun p hp => nomatch hp
  | cons m ms =>
    obtain ⟨name, j⟩ := m
    rw [toPairs]
    exact .cons ⟨⟨name, rfl⟩, ofValue_toValue style j h.1⟩ (areWritable_toPairs style ms h.2)
termination_by structural ms

end

end Json

/-! ## Entries -/

namespace Ledger.Entry

variable {e row : Entry}

/-- An entry is stored in its place and with its hashes; its attributes are read back from JSON. -/
theorem stored?_row (h : e.stored? = some row) : ∃ timestamp recordedAt j,
    Json.ofValue Json.storage e.attributes = .ok j ∧
    row = { e with timestamp, recordedAt, attributes := j.toValue } := by
  unfold stored? at h
  obtain ⟨timestamp, -, h⟩ := Option.bind_eq_some_iff.mp h
  obtain ⟨recordedAt, -, h⟩ := Option.bind_eq_some_iff.mp h
  obtain ⟨j, hj, h⟩ := Option.bind_eq_some_iff.mp h
  cases h
  refine ⟨timestamp, recordedAt, j, ?_, rfl⟩
  cases hv : Json.ofValue Json.storage e.attributes with
  | error x => rw [hv] at hj; cases hj
  | ok j' => rw [hv] at hj; cases hj; rfl

/-- A row with a tag and an object as attributes has a content. -/
theorem content_of_object {t : Audit.Tag} {ms : List (String × Json)} (ht : e.event = t.word)
    (short : Json.HaveShort ms) (ha : e.attributes = Json.toValue (.object ms)) : ∃ s, e.contentText? = .ok s := by
  rw [Json.toValue] at ha
  let r : AuditRecord := ⟨e.timestamp, e.actor, t, e.details, Entries.ofPairs (Json.toPairs ms), e.key⟩
  have writable : r.IsWritable := fun p hp =>
    ⟨((Json.areWritable_toPairs Json.storage ms short).ofPairs p hp).1,
      fun style => ((Json.areWritable_toPairs style ms short).ofPairs p hp).2⟩
  obtain ⟨v, hv, j, hj⟩ := content?_ok (r := r) ht ha writable
  refine ⟨j.render Json.compact, ?_⟩
  rw [contentText?, hv]
  dsimp only [bind, Except.bind]
  rw [hj]
  rfl

theorem content_of_stored {t : Audit.Tag} {a : Entries} (ht : e.event = t.word) (ha : e.attributes = .map a)
    (h : e.stored? = some row) : ∃ s, row.contentText? = .ok s := by
  obtain ⟨timestamp, recordedAt, j, hj, rfl⟩ := stored?_row h
  have short := Json.isShort_of_ofValue _ hj
  rw [ha] at hj
  obtain ⟨ms, -, rfl⟩ := Json.ofValue_map_ok hj
  exact content_of_object ht short rfl

end Ledger.Entry

end LoanLedger
