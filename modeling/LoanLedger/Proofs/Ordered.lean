import LoanLedger.Proofs.Contents
import LoanLedger.Proofs.Reordered

/-!
# Members in the order of their names

Canonical JSON has its members in the order of the keys before they become texts. What is read back has texts as keys,
so that it comes to the same JSON only where that is the order of the names as well:

* `Json.IsOrdered j` : the names of the members of each object in `j` rise;
* `Json.isOrdered_of_ofValue` : so they do where the keys are texts, none of them twice in a map; and what is read
  back has such keys (`Json.hasOwnTexts_toValue`);
* `Json.ofValue_reread` : JSON whose names rise is the JSON of what is read back as well;
* `Json.reread_eq_iff` : and no other JSON is.
-/

namespace LoanLedger

/-! ## Keys that are texts -/

namespace Value

theorem entriesHaveOwnTexts_iff {es : List (Value × Value)} :
    EntriesHaveOwnTexts es ↔ ∀ p ∈ es, p.2.HasOwnTexts := by
  induction es with
  | nil => simp [EntriesHaveOwnTexts]
  | cons e es ih =>
    obtain ⟨k, v⟩ := e
    simp [EntriesHaveOwnTexts, ih]

theorem hasOwnTexts_ofPairs {ps : List (Value × Value)} (ht : AreTexts ps) (h : ∀ p ∈ ps, p.2.HasOwnTexts) :
    (Value.ofPairs ps).HasOwnTexts :=
  ⟨⟨Entries.areTexts_ofPairs ht, Entries.nodup_ofPairs ht⟩, entriesHaveOwnTexts_iff.mpr fun p hp =>
    (Entries.forall_ofPairs (P := fun _ => True) (Q := HasOwnTexts) (fun p hp => ⟨trivial, h p hp⟩) p hp).2⟩

end Value

namespace Json

variable {style : Style} {es : List (Value × Value)} {ms ns : List (String × Json)}
  {ps qs : List (Value × Except Error Json)}

mutual

/-- What is read back has texts as keys. -/
theorem hasOwnTexts_toValue (j : Json) : j.toValue.HasOwnTexts := by
  cases j with
  | null | bool | int | float | text => rw [toValue]; trivial
  | list js => rw [toValue]; exact haveOwnTexts_toValues js
  | object ms =>
    rw [toValue]
    exact Value.hasOwnTexts_ofPairs (fun p hp => (hasOwnTexts_toPairs ms p hp).1) fun p hp =>
      (hasOwnTexts_toPairs ms p hp).2
termination_by structural j

theorem haveOwnTexts_toValues (js : List Json) : Value.HaveOwnTexts (toValues js) := by
  cases js with
  | nil => rw [toValues]; trivial
  | cons j js => rw [toValues]; exact ⟨hasOwnTexts_toValue j, haveOwnTexts_toValues js⟩
termination_by structural js

theorem hasOwnTexts_toPairs (ms : List (String × Json)) : ∀ p ∈ toPairs ms, (∃ s, p.1 = .text s) ∧
    p.2.HasOwnTexts := by
  cases ms with
  | nil =>
    rw [toPairs]
    exact fun p hp => nomatch hp
  | cons m ms =>
    obtain ⟨name, j⟩ := m
    rw [toPairs]
    exact List.forall_mem_cons.mpr ⟨⟨⟨name, rfl⟩, hasOwnTexts_toValue j⟩, hasOwnTexts_toPairs ms⟩
termination_by structural ms

end

/-! ## Names that rise -/

mutual

/-- The names of the members of each object rise. -/
def IsOrdered : Json → Prop
  | list js => AreOrdered js
  | object ms => (ms.map (·.1)).Pairwise (· < ·) ∧ HaveOrdered ms
  | _ => True

def AreOrdered : List Json → Prop
  | [] => True
  | j :: js => IsOrdered j ∧ AreOrdered js

def HaveOrdered : List (String × Json) → Prop
  | [] => True
  | (_, j) :: ms => IsOrdered j ∧ HaveOrdered ms

end

theorem haveOrdered_iff : HaveOrdered ms ↔ ∀ m ∈ ms, m.2.IsOrdered := by
  induction ms with
  | nil => simp [HaveOrdered]
  | cons m ms ih =>
    obtain ⟨name, j⟩ := m
    simp [HaveOrdered, ih]

theorem keys_entriesOf (ms : List (String × Json)) : (entriesOf ms).map (·.1) = (ms.map (·.1)).map Value.text := by
  rw [entriesOf, List.map_map, List.map_map]
  rfl

theorem areTexts_entriesOf (ms : List (String × Json)) : AreTexts (entriesOf ms) := by
  intro p hp
  obtain ⟨m, -, rfl⟩ := List.mem_map.mp hp
  exact ⟨m.1, rfl⟩

theorem members?_entriesOf (ms : List (String × Json)) : members? (entriesOf ms) = .ok ms := by
  induction ms with
  | nil => rfl
  | cons m ms ih =>
    change members? ((.text m.1, .ok m.2) :: entriesOf ms) = _
    rw [members?, ih]
    rfl

theorem nodup_entriesOf : ((entriesOf ms).map (·.1)).Nodup ↔ (ms.map (·.1)).Nodup := by
  rw [keys_entriesOf]
  exact List.nodup_map_iff fun _ _ => Value.text.inj

/-- Members whose names rise stand in the order of their keys. -/
theorem inOrder_entriesOf (h : (ms.map (·.1)).Pairwise (· < ·)) : InOrder (entriesOf ms) :=
  List.pairwise_map.mpr ((List.pairwise_map.mp h).imp textLE_of_lt)

/-- Members in the order of their keys, no name twice, have names that rise. -/
theorem rise_of_inOrder (h : InOrder (entriesOf ms)) (hn : (ms.map (·.1)).Nodup) :
    (ms.map (·.1)).Pairwise (· < ·) := by
  refine List.pairwise_map.mpr (((List.pairwise_map.mp h).and (List.pairwise_map.mp hn)).imp ?_)
  rintro m n ⟨⟨s, t, hs, ht, hle⟩, hne⟩
  cases hs
  cases ht
  exact String.not_le.mp fun hge => hne (String.le_antisymm hle hge)

theorem rise_of_sortedMembers? (ht : AreTexts ps) (hn : (ps.map (·.1)).Nodup) (h : sortedMembers? true ps = .ok ms) :
    (ms.map (·.1)).Pairwise (· < ·) := by
  obtain ⟨out, hs, perm, order⟩ := sortKeys?_texts ht
  rw [sortedMembers?, if_pos rfl, hs] at h
  obtain rfl := eq_entriesOf_of_members? (ht.mono fun p hp => perm.mem_iff.mp hp) h
  exact rise_of_inOrder order (nodup_entriesOf.mp ((perm.map _).nodup_iff.mpr hn))

/-- Members whose names rise are what sorting their entries comes to, in whatever order those are. -/
theorem sortedMembers?_of_perm (h : (ms.map (·.1)).Pairwise (· < ·)) (hp : (entriesOf ms).Perm ps) :
    sortedMembers? true ps = .ok ms := by
  have distinct := nodup_entriesOf.mpr (h.imp fun hlt => String.ne_of_lt hlt)
  have sorted := sortKeys?_of_perm (areTexts_entriesOf ms) distinct (inOrder_entriesOf h) hp
  rw [sortedMembers?, if_pos rfl, sorted]
  exact members?_entriesOf ms

mutual

/-- A value with texts as keys has JSON whose names rise, where members are sorted. -/
theorem isOrdered_of_ofValue (hs : style.isSorted = true) (hw : style.WritesTexts) (v : Value)
    (hv : v.HasOwnTexts) {j : Json} (h : ofValue style v = .ok j) : j.IsOrdered := by
  have texts {w : Value} (hl : style.leaf w = .ok j) : j.IsOrdered := by
    obtain ⟨s, rfl⟩ := hw.leaf w j hl
    trivial
  cases v with
  | null | bool | float | text | tag => cases h; trivial
  | int n => rw [ofValue_int h]; trivial
  | list vs =>
    obtain ⟨js, hj, rfl⟩ := ofValue_list_ok h
    exact areOrdered_of_ofValues hs hw vs hv hj
  | tuple => exact hv.elim
  | set vs =>
    rw [ofValue, hw.sets] at h
    exact texts h
  | map es =>
    obtain ⟨⟨hkeys, hn⟩, hv⟩ := hv
    obtain ⟨ms, hm, rfl⟩ := ofValue_map_ok h
    rw [hs] at hm
    have keys : (ofEntries style es).map (·.1) = es.map (·.1) := keys_ofEntries es
    rw [← keys] at hn
    refine ⟨rise_of_sortedMembers? (areTexts_ofEntries hkeys) hn hm, haveOrdered_iff.mpr fun m hmem => ?_⟩
    obtain ⟨p, hp, he⟩ := exists_of_mem_sortedMembers? hm hmem
    obtain ⟨q, hq, rfl⟩ := mem_ofEntries hp
    exact isOrdered_of_mem hs hw es hv q hq he
  | decimal | bytes | uuid | date | time | other => exact texts h
termination_by structural v

theorem areOrdered_of_ofValues (hs : style.isSorted = true) (hw : style.WritesTexts) (vs : List Value)
    (hv : Value.HaveOwnTexts vs) {js : List Json} (h : ofValues style vs = .ok js) : AreOrdered js := by
  cases vs with
  | nil => cases h; trivial
  | cons v vs =>
    obtain ⟨j, ks, rfl, hj, hk⟩ := ofValues_cons_ok h
    exact ⟨isOrdered_of_ofValue hs hw v hv.1 hj, areOrdered_of_ofValues hs hw vs hv.2 hk⟩
termination_by structural vs

theorem isOrdered_of_mem (hs : style.isSorted = true) (hw : style.WritesTexts) (es : List (Value × Value))
    (he : Value.EntriesHaveOwnTexts es) (p : Value × Value) (h : p ∈ es) {j : Json}
    (hj : ofValue style p.2 = .ok j) : j.IsOrdered := by
  cases es with
  | nil => cases h
  | cons e es =>
    obtain ⟨k, v⟩ := e
    rcases List.mem_cons.mp h with rfl | h
    · exact isOrdered_of_ofValue hs hw v he.1 hj
    · exact isOrdered_of_mem hs hw es he.2 p h hj
termination_by structural es

end

/-! ## What is read back -/

/-- The members of reordered entries are the members reordered. -/
theorem members?_perm (h : qs.Perm ps) :
    ∀ {ns}, members? qs = .ok ns → ∃ ms, members? ps = .ok ms ∧ ms.Perm ns := by
  induction h with
  | nil => exact fun h => ⟨_, h, .refl _⟩
  | cons p _ ih =>
    intro ns h
    obtain ⟨k, x⟩ := p
    obtain ⟨name, j, ns, rfl, hk, rfl, hn⟩ := members?_cons_ok h
    obtain ⟨ms, hm, hp⟩ := ih hn
    exact ⟨(name, j) :: ms, by rw [members?, hk, hm]; rfl, hp.cons _⟩
  | swap p q ps =>
    intro ns h
    obtain ⟨k, x⟩ := p
    obtain ⟨k', x'⟩ := q
    obtain ⟨name', j', _, rfl, hk', rfl, hrest⟩ := members?_cons_ok h
    obtain ⟨name, j, ns, rfl, hk, rfl, hn⟩ := members?_cons_ok hrest
    exact ⟨(name, j) :: (name', j') :: ns, by rw [members?, members?, hk, hk', hn]; rfl, .swap _ _ _⟩
  | trans _ _ ih ih' =>
    intro ns h
    obtain ⟨ms, hm, hp⟩ := ih h
    obtain ⟨ls, hl, hp'⟩ := ih' hm
    exact ⟨ls, hl, hp'.trans hp⟩

mutual

/-- JSON whose names rise is the JSON of what is read back as well. -/
theorem ofValue_reread (v : Value) {stored j : Json} (hs : ofValue storage v = .ok stored)
    (hj : ofValue canonical v = .ok j) (ho : j.IsOrdered) : ofValue canonical stored.toValue = .ok j := by
  cases v with
  | null | bool | float | text | tag =>
    cases hs
    cases hj
    rw [toValue, ofValue]
  | int n =>
    rw [ofValue_int hs, toValue]
    exact hj
  | list vs | tuple vs =>
    rw [ofValue] at hs hj
    obtain ⟨ss, hss, rfl⟩ := map_ok hs
    obtain ⟨js, hjs, rfl⟩ := map_ok hj
    rw [toValue, ofValue, ofValues_reread vs hss hjs ho]
    rfl
  | map es =>
    obtain ⟨ms, hm, rfl⟩ := ofValue_map_ok hs
    obtain ⟨ns, hn, rfl⟩ := ofValue_map_ok hj
    obtain ⟨qs, hq, hn⟩ := sortedMembers?_ok hn
    obtain ⟨ls, hl, perm⟩ := members?_perm hq hn
    obtain ⟨rise, ordered⟩ := ho
    -- the names rise, so that none is there twice and the pairs make up a map as they are
    have entries : ofEntries canonical (toPairs ms) = entriesOf ls :=
      ofEntries_reread es hm hl fun m hmem => haveOrdered_iff.mp ordered m (perm.mem_iff.mp hmem)
    have keys : (ofEntries canonical (toPairs ms)).map (·.1) = (toPairs ms).map (·.1) := keys_ofEntries _
    have distinct : ((toPairs ms).map (·.1)).Nodup := by
      rw [← keys, entries, nodup_entriesOf, (perm.map _).nodup_iff]
      exact rise.imp fun hlt => String.ne_of_lt hlt
    have kept : Entries.ofPairs (toPairs ms) = toPairs ms :=
      Entries.ofPairs_of_nodup (fun p hp => (hasOwnTexts_toPairs ms p hp).1) distinct
    have sorted : sortedMembers? canonical.isSorted (entriesOf ls) = .ok ns :=
      sortedMembers?_of_perm rise (perm.symm.map _)
    rw [toValue, Value.ofPairs, kept, ofValue, entries, sorted]
    rfl
  | decimal | bytes | uuid | date | time | set | other => cases hs
termination_by structural v

theorem ofValues_reread (vs : List Value) {ss js : List Json} (hs : ofValues storage vs = .ok ss)
    (hj : ofValues canonical vs = .ok js) (ho : AreOrdered js) : ofValues canonical (toValues ss) = .ok js := by
  cases vs with
  | nil =>
    cases hs
    cases hj
    rw [toValues, ofValues]
  | cons v vs =>
    obtain ⟨s, ss, rfl, hs, hss⟩ := ofValues_cons_ok hs
    obtain ⟨j, js, rfl, hj, hjs⟩ := ofValues_cons_ok hj
    rw [toValues, ofValues, ofValue_reread v hs hj ho.1, ofValues_reread vs hss hjs ho.2]
    rfl
termination_by structural vs

theorem ofEntries_reread (es : List (Value × Value)) {ms ns : List (String × Json)}
    (hms : members? (ofEntries storage es) = .ok ms) (hns : members? (ofEntries canonical es) = .ok ns)
    (ho : ∀ n ∈ ns, n.2.IsOrdered) : ofEntries canonical (toPairs ms) = entriesOf ns := by
  cases es with
  | nil =>
    cases hms
    cases hns
    rw [toPairs, ofEntries]
    rfl
  | cons e es =>
    obtain ⟨k, v⟩ := e
    rw [ofEntries] at hms hns
    obtain ⟨name, s, ms, rfl, hk, hs, hms'⟩ := members?_cons_ok hms
    obtain ⟨name', j, ns, rfl, hk', hj, hns'⟩ := members?_cons_ok hns
    rw [hk] at hk'
    cases hk'
    obtain ⟨first, others⟩ := List.forall_mem_cons.mp ho
    rw [toPairs, ofEntries, ofValue_reread v hs hj first, ofEntries_reread es hms' hns' others]
    rfl
termination_by structural es

end

/-- What is read back of a value comes to the JSON of the value exactly where the names rise. -/
theorem reread_eq_iff {v : Value} {stored j : Json} (hs : ofValue storage v = .ok stored)
    (hj : ofValue canonical v = .ok j) :
    ∃ k, ofValue canonical stored.toValue = .ok k ∧ (k = j ↔ j.IsOrdered) := by
  obtain ⟨k, hk⟩ := ofValue_toValue canonical stored (isShort_of_ofValue v hs)
  refine ⟨k, hk, ?_, fun ho => ?_⟩
  · rintro rfl
    exact isOrdered_of_ofValue rfl canonical_writesTexts _ (hasOwnTexts_toValue stored) hk
  · have same := ofValue_reread v hs hj ho
    rw [hk] at same
    exact Except.ok.inj same

end Json

end LoanLedger
