import LoanLedger.Proofs.Canonical
import LoanLedger.Proofs.Links

/-!
# What the hashed texts tell

* `Entry.content_inj` : the text that the content hash is taken of tells the content, with the attributes in
  any order;
* `Entry.Agrees e e'` : the entries agree in place, content and hashes, with the attributes in any order;
* `Entry.hashed e` : the texts that are hashed when `e` is checked; `Entry.IsSealed.texts` : its hashes are
  their digests.
-/

namespace LoanLedger

namespace Ledger

variable {e e' : Entry} {prevHash : Option String}

/-! ## Content -/

namespace Entry

/-- The attributes are a JSON object without binary fractions. -/
def IsExact (e : Entry) : Prop := ∃ es, e.attributes = .map es ∧ Value.HaveExact es

/-- The attributes are a JSON object, each binary fraction in it a number of the format. -/
def IsProper (e : Entry) : Prop := ∃ es, e.attributes = .map es ∧ Value.HaveProper es

theorem IsExact.isProper (h : e.IsExact) : e.IsProper := by
  obtain ⟨es, ha, hes⟩ := h
  exact ⟨es, ha, Value.HaveExact.haveProper es hes⟩

/-- The entries agree in place, content and hashes, with the attributes in any order. -/
structure Agrees (e e' : Entry) : Prop where
  seq : e.seq = e'.seq
  event : e.event = e'.event
  prevHash : e.prevHash = e'.prevHash
  payloadHash : e.payloadHash = e'.payloadHash
  hash : e.hash = e'.hash
  timestamp : e.timestamp = e'.timestamp
  recordedAt : e.recordedAt = e'.recordedAt
  actor : e.actor = e'.actor
  details : e.details = e'.details
  attributes : e.attributes.Same e'.attributes
  key : e.key = e'.key

/-- What the content hash covers, as entries of a map. -/
def fields (e : Entry) (t : Audit.Tag) (attributes : Entries) : List (Value × Value) := [
  (.text "timestamp", .time e.timestamp),
  (.text "recorded_at", .time e.recordedAt),
  (.text "actor", .text e.actor),
  (.text "event", .text t.word),
  (.text "details", .text e.details),
  (.text "attributes", .map attributes),
  (.text "idempotency_key", Value.ofText? e.key)]

theorem details?_of_map {as : Entries} (h : e.attributes = .map as) : e.details? = .ok as := by
  rw [details?, h]
  cases as <;> rfl

theorem tag?_ok {t : Audit.Tag} (h : e.tag? = .ok t) : e.event = t.word := by
  unfold tag? at h
  split at h
  · next t' ht =>
    cases h
    exact (Audit.Tag.word_of_ofWord? ht).symm
  · cases h

theorem content?_ok_iff {as : Entries} {v : Value} (ha : e.attributes = .map as) (h : e.content? = .ok v) :
    ∃ t, e.event = t.word ∧ v = .map (e.fields t as) := by
  unfold content? at h
  rw [details?_of_map ha] at h
  obtain ⟨t, ht, h⟩ := bind_ok h
  cases h
  exact ⟨t, tag?_ok ht, rfl⟩

theorem contentText?_ok {as : Entries} {s : String} (ha : e.attributes = .map as) (h : e.contentText? = .ok s) :
    ∃ t j, e.event = t.word ∧ Json.ofValue Json.canonical (.map (e.fields t as)) = .ok j ∧
      s = j.render Json.compact := by
  unfold contentText? at h
  obtain ⟨v, hv, h⟩ := bind_ok h
  obtain ⟨t, ht, rfl⟩ := content?_ok_iff ha hv
  obtain ⟨j, hj, h⟩ := bind_ok h
  cases h
  exact ⟨t, j, ht, mapError_ok hj, rfl⟩

theorem fields_texts (e : Entry) (t : Audit.Tag) (as : Entries) : AreTexts (e.fields t as) := by
  intro p hp
  simp only [fields, List.mem_cons, List.not_mem_nil, or_false] at hp
  rcases hp with rfl | rfl | rfl | rfl | rfl | rfl | rfl <;> exact ⟨_, rfl⟩

theorem isProper_of_fields {t : Audit.Tag} {as : Entries} {j : Json} (ha : Value.EntriesHaveNumbers as)
    (h : Json.ofValue Json.canonical (.map (e.fields t as)) = .ok j) : j.IsProper := by
  refine Json.isProper_of_ofValue Json.canonical_writesTexts _ ?_ h
  cases hk : e.key <;> simp [fields, hk, Value.ofText?, Value.HasNumbers, Value.EntriesHaveNumbers, ha]

/-- Entries whose fields have the same JSON have the same JSON in each field. -/
theorem fields_inj {t t' : Audit.Tag} {as as' : Entries} {j : Json}
    (h : Json.ofValue Json.canonical (.map (e.fields t as)) = .ok j)
    (h' : Json.ofValue Json.canonical (.map (e'.fields t' as')) = .ok j) :
    (e.fields t as).map (fun p => Json.ofValue Json.canonical p.2) =
      (e'.fields t' as').map fun p => Json.ofValue Json.canonical p.2 := by
  obtain ⟨ms, rfl, hp⟩ := Json.perm_of_ofValue_map (e.fields_texts t as) h
  obtain ⟨ms', hms, hp'⟩ := Json.perm_of_ofValue_map (e'.fields_texts t' as') h'
  cases hms
  have perm := hp.symm.trans hp'
  rw [Json.ofEntries_eq_map, Json.ofEntries_eq_map] at perm
  have same := eq_of_perm_of_keys perm (by simp [fields]) (by simp [fields])
  have values := congrArg (List.map Prod.snd) same
  rwa [List.map_map, List.map_map] at values

/-- Entries with the same content text have the same JSON in each field. -/
theorem fields_of_text {as as' : Entries} {s : String} (ha : e.attributes = .map as) (ha' : e'.attributes = .map as')
    (hn : Value.EntriesHaveNumbers as) (hn' : Value.EntriesHaveNumbers as') (h : e.contentText? = .ok s)
    (h' : e'.contentText? = .ok s) : ∃ t t' : Audit.Tag, e.event = t.word ∧ e'.event = t'.word ∧
      (e.fields t as).map (fun p => Json.ofValue Json.canonical p.2) =
        (e'.fields t' as').map fun p => Json.ofValue Json.canonical p.2 := by
  obtain ⟨t, j, ht, hj, hs⟩ := contentText?_ok ha h
  obtain ⟨t', j', ht', hj', hs'⟩ := contentText?_ok ha' h'
  have hjj : j = j' :=
    Json.render_inj Json.compact_isPlain (isProper_of_fields hn hj) (isProper_of_fields hn' hj') (hs.symm.trans hs')
  subst hjj
  exact ⟨t, t', ht, ht', fields_inj hj hj'⟩

theorem attributes_of_text {as : Entries} {s : String} (ha : e.attributes = .map as) (h : e.contentText? = .ok s) :
    ∃ j, Json.ofValue Json.canonical (.map as) = .ok j := by
  obtain ⟨t, j, -, hj, -⟩ := contentText?_ok ha h
  obtain ⟨ms, rfl, hp⟩ := Json.perm_of_ofValue_map (e.fields_texts t as) hj
  obtain ⟨m, -, -, hm⟩ := Json.exists_mem_of_perm hp
    (show ((.text "attributes", .map as) : Value × Value) ∈ e.fields t as by simp [fields])
  exact ⟨m.2, hm⟩

/-- Entries with the same content text have the same content, with the attributes in any order. -/
theorem content_inj {s : String} (he : e.IsProper) (he' : e'.IsProper) (h : e.contentText? = .ok s)
    (h' : e'.contentText? = .ok s) :
    e.event = e'.event ∧ e.timestamp = e'.timestamp ∧ e.recordedAt = e'.recordedAt ∧ e.actor = e'.actor ∧
      e.details = e'.details ∧ e.attributes.Same e'.attributes ∧ e.key = e'.key := by
  obtain ⟨as, ha, hproper⟩ := he
  obtain ⟨as', ha', hproper'⟩ := he'
  obtain ⟨t, t', ht, ht', values⟩ := fields_of_text ha ha' (Value.HaveProper.haveNumbers as hproper)
    (Value.HaveProper.haveNumbers as' hproper') h h'
  obtain ⟨htime, values⟩ := List.cons.inj values
  obtain ⟨hrecorded, values⟩ := List.cons.inj values
  obtain ⟨hactor, values⟩ := List.cons.inj values
  obtain ⟨hevent, values⟩ := List.cons.inj values
  obtain ⟨hdetails, values⟩ := List.cons.inj values
  obtain ⟨hattributes, values⟩ := List.cons.inj values
  obtain ⟨hkey, -⟩ := List.cons.inj values
  have text {a b : String} (h : Json.ofValue Json.canonical (.text a) = Json.ofValue Json.canonical (.text b)) :
      a = b := by
    cases h
    rfl
  have time {a b : Calendar.Timestamp}
      (h : Json.ofValue Json.canonical (.time a) = Json.ofValue Json.canonical (.time b)) : a = b :=
    Calendar.Timestamp.iso_inj (JsonOf.text.inj (Except.ok.inj h))
  refine ⟨?_, time htime, time hrecorded, text hactor, text hdetails, ?_, ?_⟩
  · rw [ht, ht', text hevent]
  · obtain ⟨j, hj⟩ := attributes_of_text ha h
    rw [ha, ha']
    exact Json.same_of_ofValue (.map as) hproper hproper' hj (hattributes.symm.trans hj)
  · cases hk : e.key with
    | none =>
      cases hk' : e'.key with
      | none => rfl
      | some key' =>
        rw [hk, hk'] at hkey
        cases hkey
    | some key =>
      rw [hk] at hkey
      cases hk' : e'.key with
      | none =>
        rw [hk'] at hkey
        cases hkey
      | some key' =>
        rw [hk'] at hkey
        rw [text hkey]

def hashed (e : Entry) : List String :=
  match e.contentText? with
  | .ok s => [s, Audit.chainText e.loanId e.seq e.event (digestOf s) e.prevHash]
  | .error _ => []

theorem mem_hashed {s : String} (h : e.contentText? = .ok s) : s ∈ e.hashed := by
  rw [hashed, h]
  exact List.mem_cons_self

theorem IsSealed.texts (h : e.IsSealed prevHash) :
    ∃ s, e.contentText? = .ok s ∧ e.payloadHash = digestOf s ∧
      e.hash = digestOf (Audit.chainText e.loanId e.seq e.event (digestOf s) e.prevHash) ∧
      e.hashed = [s, Audit.chainText e.loanId e.seq e.event (digestOf s) e.prevHash] := by
  have hp := h.payloadHash
  unfold payloadHash? at hp
  obtain ⟨s, hs, hp⟩ := map_ok hp
  have hhash := h.hash
  rw [Audit.chainHash, ← hp] at hhash
  exact ⟨s, hs, hp.symm, hhash, by rw [hashed, hs]⟩

end Entry

end Ledger

end LoanLedger
