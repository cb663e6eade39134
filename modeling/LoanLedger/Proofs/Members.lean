import LoanLedger.Proofs.Canonical
import LoanLedger.Proofs.Contents
import LoanLedger.Proofs.Loaded
import Mathlib.Data.List.Nodup

/-!
# The canonical JSON of a document

* `Entries.mem_ofPairs` : of the pairs that are put into a map the last one under each text is kept;
* `canonicalJson? v` : the JSON whose text the checksum of `v` is taken of;
* `Members es ms` : `ms` are the members of the canonical JSON of the map of `es`: the last entry whose key has a name
  is the member of that name, and there are no others;
* `canonicalJson?_isProper` : each binary fraction in the canonical JSON of a loaded document is a number of the format,
  so that its text tells the JSON (`sameJson_of_canonicalText?`).
-/

namespace LoanLedger

/-! ## Pairs under texts -/

namespace Entries

variable {es ps : Entries} {s t : String} {v : Value} {p : Value × Value}

theorem mem_put_self (h : AreTexts es) : (.text s, v) ∈ es.put (.text s) v := by
  induction es with
  | nil => exact List.mem_singleton_self _
  | cons e es ih =>
    obtain ⟨k, w⟩ := e
    obtain ⟨t, rfl⟩ := h (k, w) List.mem_cons_self
    rw [put, sameKey_text]
    by_cases ht : t = s
    · rw [ht, beq_self_eq_true, if_pos rfl]
      exact List.mem_cons_self
    · rw [beq_false_of_ne ht, if_neg Bool.false_ne_true]
      exact List.mem_cons_of_mem _ (ih (h.mono fun p hp => List.mem_cons_of_mem _ hp))

theorem mem_put_of_ne (h : AreTexts es) (hp : p ∈ es) (hne : p.1 ≠ .text s) : p ∈ es.put (.text s) v := by
  induction es with
  | nil => cases hp
  | cons e es ih =>
    obtain ⟨k, w⟩ := e
    obtain ⟨t, rfl⟩ := h (k, w) List.mem_cons_self
    rw [put, sameKey_text]
    by_cases ht : t = s
    · rw [ht, beq_self_eq_true, if_pos rfl]
      rcases List.mem_cons.mp hp with rfl | hp
      · exact absurd (congrArg Value.text ht) hne
      · exact List.mem_cons_of_mem _ hp
    · rw [beq_false_of_ne ht, if_neg Bool.false_ne_true]
      rcases List.mem_cons.mp hp with rfl | hp
      · exact List.mem_cons_self
      · exact List.mem_cons_of_mem _ (ih (h.mono fun p hp => List.mem_cons_of_mem _ hp) hp)

/-- What is put in last under a text is kept. -/
theorem mem_ofPairs {as bs : Entries} (h : AreTexts (as ++ (.text s, v) :: bs)) (hb : ∀ p ∈ bs, p.1 ≠ .text s) :
    (.text s, v) ∈ ofPairs (as ++ (.text s, v) :: bs) := by
  have kept : ∀ (bs es : Entries), AreTexts es → AreTexts bs → (∀ p ∈ bs, p.1 ≠ .text s) →
      (.text s, v) ∈ es → (.text s, v) ∈ bs.foldl (fun es p => es.put p.1 p.2) es := by
    intro bs
    induction bs with
    | nil => exact fun _ _ _ _ hm => hm
    | cons b bs ih =>
      intro es hes hbs hb hm
      obtain ⟨k, w⟩ := b
      obtain ⟨t, rfl⟩ := hbs (k, w) List.mem_cons_self
      obtain ⟨hne, hb⟩ := List.forall_mem_cons.mp hb
      exact ih _ (areTexts_put hes) (hbs.mono fun p hp => List.mem_cons_of_mem _ hp) hb (mem_put_of_ne hes hm hne.symm)
  have front : AreTexts (ofPairs as) := areTexts_ofPairs (h.mono fun p hp => List.mem_append_left _ hp)
  rw [ofPairs, List.foldl_append, List.foldl_cons]
  exact kept bs _ (areTexts_put front) (h.mono fun p hp => by simp [hp]) hb (mem_put_self front)

end Entries

/-! ## The JSON of a document -/

section Canonical

variable {es ps : Entries} {v w : Value} {vs : List Value} {s : String} {j : Json} {ms : List (String × Json)}

def canonicalJson? (v : Value) : Except Json.Error Json := do
  let v ← Workflow.canonicalKeys? v
  Json.ofValue Json.document v

theorem canonicalJson?_of_keys (h : Workflow.canonicalKeys? v = .ok w) :
    canonicalJson? v = Json.ofValue Json.document w := by
  unfold canonicalJson?
  rw [h]
  rfl

theorem canonicalText?_eq (v : Value) : Workflow.canonicalText? v = (canonicalJson? v).map (·.render Json.spaced) := by
  unfold Workflow.canonicalText? canonicalJson?
  cases Workflow.canonicalKeys? v with
  | error x => rfl
  | ok w =>
    dsimp only [bind, Except.bind]
    cases Json.ofValue Json.document w <;> rfl

/-- A pair with its key as a text and its value with texts for all keys. -/
def Renamed (p q : Value × Value) : Prop :=
  ∃ s w, Workflow.keyName? p.1 = .ok s ∧ Workflow.canonicalKeys? p.2 = .ok w ∧ q = (.text s, w)

theorem canonicalEntries?_cons_ok {k : Value} (h : Workflow.canonicalEntries? ((k, v) :: es) = .ok ps) :
    ∃ q qs, ps = q :: qs ∧ Renamed (k, v) q ∧ Workflow.canonicalEntries? es = .ok qs := by
  rw [Workflow.canonicalEntries?] at h
  obtain ⟨s, hs, h⟩ := bind_ok h
  obtain ⟨w, hw, h⟩ := bind_ok h
  obtain ⟨qs, hqs, h⟩ := bind_ok h
  cases h
  exact ⟨_, qs, rfl, ⟨s, w, hs, hw, rfl⟩, hqs⟩

theorem exists_renamed (h : Workflow.canonicalEntries? es = .ok ps) {q : Value × Value} (hq : q ∈ ps) :
    ∃ p ∈ es, Renamed p q := by
  induction es generalizing ps with
  | nil =>
    cases h
    cases hq
  | cons e es ih =>
    obtain ⟨r, qs, rfl, hr, hqs⟩ := canonicalEntries?_cons_ok h
    rcases List.mem_cons.mp hq with rfl | hq
    · exact ⟨e, List.mem_cons_self, hr⟩
    · obtain ⟨p, hp, hpq⟩ := ih hqs hq
      exact ⟨p, List.mem_cons_of_mem _ hp, hpq⟩

theorem areTexts_of_canonicalEntries? (h : Workflow.canonicalEntries? es = .ok ps) : AreTexts ps := fun q hq => by
  obtain ⟨p, -, s, w, -, -, rfl⟩ := exists_renamed h hq
  exact ⟨s, rfl⟩

theorem canonicalEntries?_append_ok {as bs : Entries} (h : Workflow.canonicalEntries? (as ++ bs) = .ok ps) :
    ∃ qs rs, ps = qs ++ rs ∧ Workflow.canonicalEntries? bs = .ok rs := by
  induction as generalizing ps with
  | nil => exact ⟨[], ps, rfl, h⟩
  | cons a as ih =>
    obtain ⟨q, qs, rfl, -, hqs⟩ := canonicalEntries?_cons_ok h
    obtain ⟨qs, rs, rfl, hrs⟩ := ih hqs
    exact ⟨q :: qs, rs, rfl, hrs⟩

theorem canonicalList?_cons_ok {ws : List Value} (h : Workflow.canonicalList? (v :: vs) = .ok ws) :
    ∃ w us, ws = w :: us ∧ Workflow.canonicalKeys? v = .ok w ∧ Workflow.canonicalList? vs = .ok us := by
  rw [Workflow.canonicalList?] at h
  obtain ⟨w, hw, h⟩ := bind_ok h
  obtain ⟨us, hu, h⟩ := bind_ok h
  cases h
  exact ⟨w, us, rfl, hw, hu⟩

/-- The members of the canonical JSON of a map: no name twice, each from an entry whose key has that name, and one from
the last entry under each name. -/
structure Members (es : Entries) (ms : List (String × Json)) : Prop where
  nodup : (ms.map (·.1)).Nodup
  named : ∀ m ∈ ms, ∃ p ∈ es, Workflow.keyName? p.1 = .ok m.1
  last : ∀ as bs : Entries, ∀ k v s, es = as ++ (k, v) :: bs → Workflow.keyName? k = .ok s →
    (∀ p ∈ bs, Workflow.keyName? p.1 ≠ .ok s) → ∃ j, canonicalJson? v = .ok j ∧ (s, j) ∈ ms

theorem members_of_canonicalEntries? (hp : Workflow.canonicalEntries? es = .ok ps)
    (perm : (Json.entriesOf ms).Perm (Json.ofEntries Json.document (Entries.ofPairs ps))) : Members es ms where
  nodup := by
    have keys := perm.map (·.1)
    rw [Json.ofEntries_eq_map, Json.entriesOf, List.map_map, List.map_map] at keys
    have names := keys.nodup_iff.mpr (Entries.nodup_ofPairs (areTexts_of_canonicalEntries? hp))
    exact List.Nodup.of_map Value.text (by rwa [List.map_map])
  named m hm := by
    obtain ⟨p, hmem, he, -⟩ := Json.exists_entry_of_perm perm hm
    have put := (Entries.forall_ofPairs (P := fun k => ∃ q ∈ ps, q.1 = k) (Q := fun _ => True)
      (fun q hq => ⟨⟨q, hq, rfl⟩, trivial⟩) p hmem).1
    obtain ⟨q, hq, hk⟩ := put
    obtain ⟨e, he', s, w, hs, -, rfl⟩ := exists_renamed hp hq
    exact ⟨e, he', Value.text.inj (hk.trans he) ▸ hs⟩
  last as bs k v s hes hk hb := by
    obtain ⟨qs, rs, rfl, hrs⟩ := canonicalEntries?_append_ok (hes ▸ hp)
    obtain ⟨q, ts, rfl, ⟨s', w, hs', hw, rfl⟩, hts⟩ := canonicalEntries?_cons_ok hrs
    obtain rfl : s = s' := Except.ok.inj (hk.symm.trans hs')
    have behind : ∀ q ∈ ts, q.1 ≠ .text s := by
      intro q hq he
      obtain ⟨p, hmem, t, w, ht, -, rfl⟩ := exists_renamed hts hq
      exact hb p hmem (Value.text.inj he ▸ ht)
    have kept := Entries.mem_ofPairs (areTexts_of_canonicalEntries? hp) behind
    obtain ⟨m, hm, he, hj⟩ := Json.exists_mem_of_perm perm kept
    obtain rfl : s = m.1 := Value.text.inj he
    exact ⟨m.2, (canonicalJson?_of_keys hw).trans hj, hm⟩

theorem canonicalJson?_map (h : canonicalJson? (.map es) = .ok j) : ∃ ms, j = .object ms ∧ Members es ms := by
  unfold canonicalJson? at h
  obtain ⟨w, hw, h⟩ := bind_ok h
  rw [Workflow.canonicalKeys?] at hw
  obtain ⟨ps, hp, rfl⟩ := map_ok hw
  obtain ⟨ms, rfl, perm⟩ := Json.perm_of_ofValue_map (Entries.areTexts_ofPairs (areTexts_of_canonicalEntries? hp)) h
  exact ⟨ms, rfl, members_of_canonicalEntries? hp perm⟩

end Canonical

/-! ## Numbers -/

namespace Value

mutual

theorem IsLoaded.hasNumbers (v : Value) (h : v.IsLoaded) : v.HasNumbers := by
  cases v with
  | null | bool | int | text | bytes | date | time | set => trivial
  | float => exact h
  | list vs | tuple vs => exact AreLoaded.haveNumbers vs h
  | map es => exact HaveLoaded.entriesHaveNumbers es h
  | decimal | uuid | tag | other => exact h.elim
termination_by structural v

theorem AreLoaded.haveNumbers (vs : List Value) (h : AreLoaded vs) : HaveNumbers vs := by
  cases vs with
  | nil => trivial
  | cons v vs => exact ⟨IsLoaded.hasNumbers v h.1, AreLoaded.haveNumbers vs h.2⟩
termination_by structural vs

theorem HaveLoaded.entriesHaveNumbers (es : List (Value × Value)) (h : HaveLoaded es) : EntriesHaveNumbers es := by
  cases es with
  | nil => trivial
  | cons e es =>
    obtain ⟨k, v⟩ := e
    exact ⟨IsLoaded.hasNumbers v h.2.1, HaveLoaded.entriesHaveNumbers es h.2.2⟩
termination_by structural es

end

mutual

/-- Texts for all keys leave the numbers as they are. -/
theorem HasNumbers.canonical (v : Value) (hv : v.HasNumbers) {w : Value} (h : Workflow.canonicalKeys? v = .ok w) :
    w.HasNumbers := by
  cases v with
  | list vs =>
    rw [Workflow.canonicalKeys?] at h
    obtain ⟨ws, hs, rfl⟩ := map_ok h
    exact HaveNumbers.canonical vs hv hs
  | map es =>
    rw [Workflow.canonicalKeys?] at h
    obtain ⟨ps, hs, rfl⟩ := map_ok h
    exact entriesHaveNumbers_iff.mpr fun p hp =>
      (Entries.forall_ofPairs (P := fun _ => True) (Q := HasNumbers)
        (fun q hq => ⟨trivial, EntriesHaveNumbers.canonical es hv hs q hq⟩) p hp).2
  | null | bool | int | float | decimal | text | bytes | uuid | date | time | tag | tuple | set | other =>
    cases h
    exact hv
termination_by structural v

theorem HaveNumbers.canonical (vs : List Value) (hv : HaveNumbers vs) {ws : List Value}
    (h : Workflow.canonicalList? vs = .ok ws) : HaveNumbers ws := by
  cases vs with
  | nil => cases h; trivial
  | cons v vs =>
    obtain ⟨w, us, rfl, hw, hs⟩ := canonicalList?_cons_ok h
    exact ⟨HasNumbers.canonical v hv.1 hw, HaveNumbers.canonical vs hv.2 hs⟩
termination_by structural vs

theorem EntriesHaveNumbers.canonical (es : List (Value × Value)) (he : EntriesHaveNumbers es)
    {ps : List (Value × Value)} (h : Workflow.canonicalEntries? es = .ok ps) (q : Value × Value)
    (hq : q ∈ ps) : q.2.HasNumbers := by
  cases es with
  | nil => cases h; cases hq
  | cons e es =>
    obtain ⟨k, v⟩ := e
    obtain ⟨r, qs, rfl, ⟨s, w, -, hw, rfl⟩, hqs⟩ := canonicalEntries?_cons_ok h
    rcases List.mem_cons.mp hq with rfl | hq
    · exact HasNumbers.canonical v he.1 hw
    · exact EntriesHaveNumbers.canonical es he.2 hqs q hq
termination_by structural es

end

end Value

theorem canonicalJson?_isProper {v : Value} {j : Json} (hv : v.IsLoaded) (h : canonicalJson? v = .ok j) :
    j.IsProper := by
  unfold canonicalJson? at h
  obtain ⟨w, hw, h⟩ := bind_ok h
  exact Json.isProper_of_ofValue Json.document_writesTexts w (hv.hasNumbers.canonical v hw) h

theorem sameJson_of_canonicalText? {v w : Value} {s : String} (hv : v.IsLoaded) (hw : w.IsLoaded)
    (h : Workflow.canonicalText? v = .ok s) (h' : Workflow.canonicalText? w = .ok s) :
    ∃ j, canonicalJson? v = .ok j ∧ canonicalJson? w = .ok j := by
  rw [canonicalText?_eq] at h h'
  obtain ⟨j, hj, rfl⟩ := map_ok h
  obtain ⟨k, hk, texts⟩ := map_ok h'
  obtain rfl :=
    Json.render_inj Json.spaced_isPlain (canonicalJson?_isProper hw hk) (canonicalJson?_isProper hv hj) texts
  exact ⟨k, hj, hk⟩

/-! ## What a name tells -/

namespace Entries

variable {es : Entries} {k v : Value}

/-- What is found is found in the first entry whose key is the same. -/
theorem split_of_get? (h : es.get? k = some v) : ∃ as k' bs, es = as ++ (k', v) :: bs ∧ k'.sameKey k = true := by
  induction es with
  | nil => cases h
  | cons e es ih =>
    obtain ⟨k', w⟩ := e
    rw [get?] at h
    split at h
    · next hk =>
      cases h
      exact ⟨[], k', es, rfl, hk⟩
    · obtain ⟨as, k', bs, rfl, hk⟩ := ih h
      exact ⟨(_, w) :: as, k', bs, rfl, hk⟩

theorem get?_eq_none : es.get? k = none ↔ ∀ p ∈ es, p.1.sameKey k = false := by
  induction es with
  | nil => simp [get?]
  | cons e es ih =>
    obtain ⟨k', w⟩ := e
    rw [get?, List.forall_mem_cons, ← ih]
    cases k'.sameKey k <;> simp

end Entries

theorem Value.IsLoadedKey.eq_text {k : Value} {s : String} (hk : k.IsLoadedKey) (h : k.sameKey (.text s) = true) :
    k = .text s := by
  cases k with
  | text t => exact congrArg Value.text (by simpa [Value.sameKey, Value.text?] using h)
  | null | bool | int | float | bytes | date | time => simp [Value.sameKey, Value.text?, Value.number?] at h
  | decimal | uuid | tag | list | tuple | set | map | other => exact hk.elim

section Fields

variable {es : Entries} {ms : List (String × Json)} {s : String} {o p : Option Value}

/-- The member of a name is the JSON of a value; there is none where there is no value. -/
def Tells (ms : List (String × Json)) (s : String) : Option Value → Prop
  | some v => ∃ j, canonicalJson? v = .ok j ∧ (s, j) ∈ ms
  | none => ∀ m ∈ ms, m.1 ≠ s

/-- The same members tell values with the same JSON. -/
theorem sameJson_of_tells {d : Value} {j : Json} (hn : (ms.map (·.1)).Nodup) (h : Tells ms s o) (h' : Tells ms s p)
    (hd : canonicalJson? d = .ok j) :
    ∃ j, canonicalJson? (o.getD d) = .ok j ∧ canonicalJson? (p.getD d) = .ok j := by
  cases o with
  | none =>
    cases p with
    | none => exact ⟨j, hd, hd⟩
    | some w =>
      obtain ⟨k, -, hk⟩ := h'
      exact absurd rfl (h _ hk)
  | some v =>
    obtain ⟨j, hj, hm⟩ := h
    cases p with
    | none => exact absurd rfl (h' _ hm)
    | some w =>
      obtain ⟨k, hk, hm'⟩ := h'
      have same : (s, j) = (s, k) := List.inj_on_of_nodup_map hn hm hm' rfl
      exact ⟨j, hj, (Prod.mk.inj same).2 ▸ hk⟩

namespace Members

variable (hm : Members es ms) (hl : Value.HaveLoaded es)

include hm

theorem tells_none (h : ∀ p ∈ es, Workflow.keyName? p.1 ≠ .ok s) : Tells ms s none := fun m hmem he => by
  obtain ⟨p, hp, hk⟩ := hm.named m hmem
  exact h p hp (he ▸ hk)

include hl

theorem tells_some {as bs : Entries} {k v : Value} (he : es = as ++ (k, v) :: bs) (hk : Workflow.keyName? k = .ok s)
    (sole : ∀ p ∈ es, Workflow.keyName? p.1 = .ok s → k.sameKey p.1 = true) : Tells ms s (some v) := by
  subst he
  refine hm.last as bs k v s rfl hk fun p hp hn => ?_
  have distinct := (List.pairwise_append.mp (Value.haveLoaded_iff.mp hl).2).2.1
  have later := (List.pairwise_cons.mp distinct).1 p hp
  rw [sole p (by simp [hp]) hn] at later
  cases later

/-- The member of a word other than `on` tells the field of that name. -/
theorem tells_field? (hs : IsWord s) (hon : s ≠ "on") : Tells ms s (es.field? s) := by
  have keys := (Value.haveLoaded_iff.mp hl).1
  have same (p : Value × Value) (hp : p ∈ es) (hn : Workflow.keyName? p.1 = .ok s) : p.1 = .text s :=
    (Value.keyName?_word (keys p hp).1 hs hn).resolve_right fun h => hon h.2
  cases h : es.field? s with
  | none =>
    refine hm.tells_none fun p hp hn => ?_
    have other := Entries.get?_eq_none.mp h p hp
    rw [same p hp hn, Entries.sameKey_text, beq_self_eq_true] at other
    cases other
  | some v =>
    obtain ⟨as, k, bs, he, hk⟩ := Entries.split_of_get? h
    obtain rfl := (keys (k, v) (by simp [he])).1.eq_text hk
    refine hm.tells_some hl he (Value.keyName?_text s) fun p hp hn => ?_
    rw [same p hp hn, Entries.sameKey_text, beq_self_eq_true]

end Members

end Fields

end LoanLedger
