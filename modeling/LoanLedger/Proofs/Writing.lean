import LoanLedger.Proofs.Storage

/-!
# What can be written

* `Json.ofValue_map` : a map of values that have JSON under text keys has JSON;
* `AuditRecord.IsWritable r` : the attributes of `r` have JSON under text keys in every style;
* `Entry.sealed?_ok`, `Entry.stored?_ok` : then its entry has content to be hashed, and is stored.
-/

namespace LoanLedger

/-! ## JSON of maps -/

namespace Json

variable {style : Style} {es : List (Value × Value)}

theorem members?_ok {ms : List (Value × Except Error Json)}
    (h : ∀ p ∈ ms, ∃ s j, p = (.text s, .ok j)) : ∃ js, members? ms = .ok js := by
  induction ms with
  | nil => exact ⟨[], rfl⟩
  | cons m ms ih =>
    obtain ⟨s, j, rfl⟩ := h m List.mem_cons_self
    obtain ⟨js, hjs⟩ := ih fun p hp => h p (List.mem_cons_of_mem _ hp)
    exact ⟨(s, j) :: js, by rw [members?, hjs]; rfl⟩

theorem mem_ofEntries {p : Value × Except Error Json} (h : p ∈ ofEntries style es) :
    ∃ q ∈ es, p = (q.1, ofValue style q.2) := by
  induction es with
  | nil => rw [ofEntries] at h; cases h
  | cons e es ih =>
    obtain ⟨k, v⟩ := e
    rw [ofEntries] at h
    rcases List.mem_cons.mp h with rfl | h
    · exact ⟨(k, v), List.mem_cons_self, rfl⟩
    · obtain ⟨q, hq, hp⟩ := ih h
      exact ⟨q, List.mem_cons_of_mem _ hq, hp⟩

/-- A map of values that have JSON under text keys has JSON. -/
theorem ofValue_map (h : ∀ p ∈ es, (∃ s, p.1 = .text s) ∧ ∃ j, ofValue style p.2 = .ok j) :
    ∃ j, ofValue style (.map es) = .ok j := by
  have made : ∀ p ∈ ofEntries style es, ∃ s j, p = (.text s, .ok j) := by
    intro p hp
    obtain ⟨q, hq, rfl⟩ := mem_ofEntries hp
    obtain ⟨⟨s, hs⟩, j, hj⟩ := h q hq
    exact ⟨s, j, by rw [hs, hj]⟩
  obtain ⟨ms, hms⟩ : ∃ ms, sortedMembers? style.isSorted (ofEntries style es) = .ok ms := by
    unfold sortedMembers?
    split
    · have texts : AreTexts (ofEntries style es) := by
        intro p hp
        obtain ⟨s, j, rfl⟩ := made p hp
        exact ⟨s, rfl⟩
      obtain ⟨out, hs, perm, -⟩ := sortKeys?_texts texts
      rw [hs]
      exact members?_ok fun p hp => made p (perm.mem_iff.mp hp)
    · exact members?_ok made
  exact ⟨.object ms, by rw [ofValue, hms]; rfl⟩

theorem ofValue_int_of_fits {n : Int} (h : Column.fitsInteger n = true) : ofValue style (.int n) = .ok (.int n) := by
  have hn : n.natAbs < Nat.pow 10 Numeral.digitLimit := by
    have h64 : n.natAbs ≤ Nat.pow 2 63 := by
      simp only [Column.fitsInteger, Bool.and_eq_true, decide_eq_true_eq] at h
      omega
    have hpow : Nat.pow 2 63 < Nat.pow 10 19 := by decide
    have hten (k : Nat) (hk : 19 ≤ k) : Nat.pow 10 19 ≤ Nat.pow 10 k := Nat.pow_le_pow_right (by decide) hk
    exact Nat.lt_of_le_of_lt h64 (Nat.lt_of_lt_of_le hpow (hten _ (by decide)))
  rw [ofValue, if_pos hn]

end Json

/-! ## Entries -/

namespace Ledger

/-- The attributes of what is recorded have JSON under text keys in every style. -/
def AuditRecord.IsWritable (r : AuditRecord) : Prop :=
  ∀ p ∈ r.attributes, (∃ s, p.1 = .text s) ∧ ∀ style, ∃ j, Json.ofValue style p.2 = .ok j

namespace Entry

variable {e : Entry} {r : AuditRecord}

theorem content?_ok (he : e.event = r.event.word) (ha : e.attributes = .map r.attributes) (hr : r.IsWritable) :
    ∃ v, e.content? = .ok v ∧ ∃ j, Json.ofValue Json.canonical v = .ok j := by
  have tag : e.tag? = .ok r.event := by rw [tag?, he, Audit.Tag.ofWord?_word]
  obtain ⟨es, hes, hsub⟩ : ∃ es, e.details? = .ok es ∧ ∀ p ∈ es, p ∈ r.attributes := by
    rw [details?, ha]
    split
    · exact ⟨r.attributes, rfl, fun p hp => hp⟩
    · exact ⟨[], rfl, fun p hp => by cases hp⟩
  obtain ⟨j, hj⟩ : ∃ j, Json.ofValue Json.canonical (.map es) = .ok j :=
    Json.ofValue_map fun p hp => ⟨(hr p (hsub p hp)).1, (hr p (hsub p hp)).2 _⟩
  refine ⟨_, by rw [content?, tag, hes]; rfl, Json.ofValue_map fun p hp => ?_⟩
  obtain ⟨f, hf, rfl⟩ := List.mem_map.mp hp
  refine ⟨⟨f.1, rfl⟩, ?_⟩
  simp only [List.mem_cons, List.not_mem_nil, or_false] at hf
  rcases hf with rfl | rfl | rfl | rfl | rfl | rfl | rfl
  · exact ⟨_, rfl⟩
  · exact ⟨_, rfl⟩
  · exact ⟨_, rfl⟩
  · exact ⟨_, rfl⟩
  · exact ⟨_, rfl⟩
  · exact ⟨j, hj⟩
  · cases e.key <;> exact ⟨_, rfl⟩

theorem sealed?_ok (he : e.event = r.event.word) (ha : e.attributes = .map r.attributes) (hr : r.IsWritable)
    (prevHash : Option String) : ∃ e', e.sealed? prevHash = .ok e' := by
  obtain ⟨v, hv, j, hj⟩ := content?_ok he ha hr
  have hp : e.payloadHash? = .ok (digestOf (j.render Json.compact)) := by
    rw [payloadHash?, contentText?, hv]
    dsimp only [bind, Except.bind]
    rw [hj]
    rfl
  exact ⟨_, by rw [sealed?, hp]; rfl⟩

theorem stored?_ok (he : e.IsPlain) (ha : e.attributes = .map r.attributes) (hr : r.IsWritable) :
    e.stored? = some e := by
  obtain ⟨j, hj⟩ : ∃ j, Json.ofValue Json.storage (.map r.attributes) = .ok j :=
    Json.ofValue_map fun p hp => ⟨(hr p hp).1, (hr p hp).2 _⟩
  have hs : e.stored? = some { e with attributes := j.toValue } := by
    unfold stored?
    rw [Calendar.Timestamp.keepTime?_of_isUtc he.timestamp,
      Calendar.Timestamp.keepTime?_of_isUtc he.recordedAt, ha, hj]
    rfl
  rw [hs, stored?_eq he hs]

end Entry

end Ledger

end LoanLedger
