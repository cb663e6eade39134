import LoanLedger.Ledger.AuditLog
import LoanLedger.Proofs.Sorting

/-!
# What storage gives back

* `Timestamp.IsUtc` : times in UTC are kept as they are (`keepTime?_of_isUtc`);
* `Value.IsJson` : JSON values with text keys at every depth read back as they were written
  (`toValue_ofValue`);
* `Entry.stored?_eq` : so an entry with such attributes is stored as it is;
* `Entry.checkEntry_of_sealed` : and one that was sealed passes the check of its link and content.
-/

namespace LoanLedger

/-! ## Times -/

namespace Calendar.Timestamp

def IsUtc (t : Timestamp) : Prop := t.offset = some Offset.utc

theorem isUtc_of_toUtc? {t u : Timestamp} (h : t.toUtc? = some u) : u.IsUtc := by
  unfold toUtc? at h
  split at h
  · cases h
    rfl
  · next o ho =>
    split at h
    · next hz =>
      cases h
      rw [IsUtc, ho]
      congr 1
      obtain ⟨m, hm⟩ := o
      cases hz
      rfl
    · unfold ofLocalMicros? at h
      obtain ⟨date, -, h⟩ := Option.bind_eq_some_iff.mp h
      cases h
      rfl

theorem toUtc?_of_isUtc {t : Timestamp} (h : t.IsUtc) : t.toUtc? = some t := by
  unfold toUtc?
  rw [h]
  rfl

theorem keepTime?_of_isUtc {t : Timestamp} (h : t.IsUtc) : Column.keepTime? t = .ok t := by
  have haware : t.isAware = true := by rw [isAware, h]; rfl
  have hbind : Column.bindTime? t = .ok t := by
    rw [Column.bindTime?, if_pos haware, Column.utc?, toUtc?_of_isUtc h]
  have hback : ({ t with offset := none } : Timestamp).toUtc? = some t := by
    obtain ⟨date, time, offset⟩ := t
    cases h
    rfl
  unfold Column.keepTime?
  rw [hbind]
  change Column.utc? { t with offset := none } = _
  rw [Column.utc?, hback]

end Calendar.Timestamp

/-! ## JSON values -/

namespace Value

mutual

/-- A JSON value with text keys at every depth, no two of a map the same. -/
def IsJson : Value → Prop
  | null | bool _ | int _ | float _ | text _ => True
  | list vs => AreJson vs
  | map es => IsRecord es
  | _ => False

/-- JSON values. -/
def AreJson : List Value → Prop
  | [] => True
  | v :: vs => IsJson v ∧ AreJson vs

/-- JSON values under text keys that differ from each other. -/
def IsRecord : List (Value × Value) → Prop
  | [] => True
  | (k, v) :: es => (∃ s, k = text s) ∧ k ∉ es.map (·.1) ∧ IsJson v ∧ IsRecord es

end

theorem isRecord_keys {es : List (Value × Value)} (h : IsRecord es) : AreTexts es ∧ (es.map (·.1)).Nodup := by
  induction es with
  | nil => simp [AreTexts]
  | cons e es ih =>
    obtain ⟨k, v⟩ := e
    obtain ⟨hk, hnew, -, hes⟩ := h
    obtain ⟨texts, distinct⟩ := ih hes
    exact ⟨List.forall_mem_cons.mpr ⟨hk, texts⟩, List.nodup_cons.mpr ⟨hnew, distinct⟩⟩

end Value

namespace Entries

theorem put_of_new {es : Entries} {s : String} (v : Value) (ht : AreTexts es) (hn : Value.text s ∉ es.map (·.1)) :
    es.put (.text s) v = es ++ [(.text s, v)] := by
  induction es with
  | nil => rfl
  | cons e es ih =>
    obtain ⟨k, w⟩ := e
    obtain ⟨s', hs'⟩ := ht (k, w) (List.mem_cons_self ..)
    cases hs'
    have hne : ¬ s' = s := fun he => hn (by simp [he])
    have hsame : (Value.text s').sameKey (.text s) = false := by simpa [Value.sameKey, Value.text?] using hne
    rw [put, hsame]
    have := ih (fun p hp => ht p (List.mem_cons_of_mem _ hp)) (fun hm => hn (List.mem_cons_of_mem _ hm))
    simp [this]

theorem foldl_put {es : Entries} (he : AreTexts es) (hn : (es.map (·.1)).Nodup) :
    ∀ {acc : Entries}, AreTexts acc → (∀ k ∈ es.map (·.1), k ∉ acc.map (·.1)) →
      es.foldl (fun es p => es.put p.1 p.2) acc = acc ++ es := by
  induction es with
  | nil => intro acc _ _; simp
  | cons e es ih =>
    obtain ⟨k, v⟩ := e
    obtain ⟨s, rfl⟩ := he (k, v) List.mem_cons_self
    obtain ⟨hnew, hn⟩ := List.nodup_cons.mp hn
    intro acc ht hd
    rw [List.foldl_cons, put_of_new v ht (hd _ (List.mem_cons_self ..)),
      ih (he.mono fun p hp => List.mem_cons_of_mem _ hp) hn]
    · simp
    · intro p hp
      rcases List.mem_append.mp hp with hp | hp
      · exact ht p hp
      · exact ⟨s, by rw [List.mem_singleton.mp hp]⟩
    · intro k hk hm
      rw [List.map_append, List.mem_append] at hm
      rcases hm with hm | hm
      · exact hd k (List.mem_cons_of_mem _ hk) hm
      · obtain rfl : k = .text s := by simpa using hm
        exact hnew hk

theorem ofPairs_of_nodup {es : Entries} (h : AreTexts es) (hn : (es.map (·.1)).Nodup) : ofPairs es = es := by
  rw [ofPairs, foldl_put h hn (by simp [AreTexts]) (by simp)]
  rfl

end Entries

namespace Json

open Value (IsJson AreJson IsRecord)

variable {style : Style} {j : Json} {js : List Json} {ms : List (String × Json)}

theorem ofValue_int {n : Int} (h : ofValue style (.int n) = .ok j) : j = .int n := by
  unfold ofValue at h
  by_cases hn : n.natAbs < Nat.pow 10 Numeral.digitLimit
  · rw [if_pos hn] at h
    injection h with h
    exact h.symm
  · rw [if_neg hn] at h
    cases h

theorem ofValue_list_ok {vs : List Value} (h : ofValue style (.list vs) = .ok j) :
    ∃ js, ofValues style vs = .ok js ∧ j = .list js := by
  rw [ofValue] at h
  obtain ⟨js, hs, rfl⟩ := map_ok h
  exact ⟨js, hs, rfl⟩

theorem ofValue_map_ok {es : List (Value × Value)} (h : ofValue style (.map es) = .ok j) :
    ∃ ms, sortedMembers? style.isSorted (ofEntries style es) = .ok ms ∧ j = .object ms := by
  rw [ofValue] at h
  obtain ⟨ms, hm, rfl⟩ := map_ok h
  exact ⟨ms, hm, rfl⟩

theorem ofValues_cons_ok {v : Value} {vs : List Value} (h : ofValues style (v :: vs) = .ok js) :
    ∃ j ks, js = j :: ks ∧ ofValue style v = .ok j ∧ ofValues style vs = .ok ks := by
  rw [ofValues] at h
  obtain ⟨j, hj, h⟩ := bind_ok h
  obtain ⟨ks, hk, h⟩ := bind_ok h
  cases h
  exact ⟨j, ks, rfl, hj, hk⟩

theorem members?_cons_ok {k : Value} {x : Except Error Json} {ps : List (Value × Except Error Json)}
    (h : members? ((k, x) :: ps) = .ok ms) :
    ∃ name j ns, ms = (name, j) :: ns ∧ keyText? k = .ok name ∧ x = .ok j ∧ members? ps = .ok ns := by
  rw [members?] at h
  obtain ⟨name, hk, h⟩ := bind_ok h
  obtain ⟨j, hj, h⟩ := bind_ok h
  obtain ⟨ns, hn, h⟩ := bind_ok h
  cases h
  exact ⟨name, j, ns, rfl, hk, hj, hn⟩

mutual

/-- A JSON value reads back as it was written. -/
theorem toValue_ofValue (v : Value) {j : Json} (hv : IsJson v) (h : ofValue storage v = .ok j) :
    j.toValue = v := by
  cases v with
  | null | bool | float | text => cases h; rw [toValue]
  | int n => rw [ofValue_int h, toValue]
  | list vs =>
    obtain ⟨js, hj, rfl⟩ := ofValue_list_ok h
    rw [toValue, toValues_ofValues vs hv hj]
  | map es =>
    obtain ⟨ms, hm, rfl⟩ := ofValue_map_ok h
    obtain ⟨texts, distinct⟩ := Value.isRecord_keys hv
    rw [toValue, toPairs_ofEntries es hv hm, Value.ofPairs, Entries.ofPairs_of_nodup texts distinct]
  | decimal | bytes | uuid | date | time | tag | tuple | set | other => exact hv.elim
termination_by structural v

theorem toValues_ofValues (vs : List Value) {js : List Json} (hv : AreJson vs)
    (h : ofValues storage vs = .ok js) : toValues js = vs := by
  cases vs with
  | nil => cases h; rw [toValues]
  | cons v vs =>
    obtain ⟨j, js, rfl, hj, hjs⟩ := ofValues_cons_ok h
    rw [toValues, toValue_ofValue v hv.1 hj, toValues_ofValues vs hv.2 hjs]
termination_by structural vs

theorem toPairs_ofEntries (es : List (Value × Value)) {ms : List (String × Json)} (hr : IsRecord es)
    (h : members? (ofEntries storage es) = .ok ms) : toPairs ms = es := by
  cases es with
  | nil => cases h; rw [toPairs]
  | cons e es =>
    obtain ⟨k, v⟩ := e
    obtain ⟨⟨s, rfl⟩, -, hv, hes⟩ := hr
    rw [ofEntries] at h
    obtain ⟨name, j, ms, rfl, hk, hj, hm⟩ := members?_cons_ok h
    cases hk
    rw [toPairs, toValue_ofValue v hv hj, toPairs_ofEntries es hes hm]
termination_by structural es

end

end Json

/-! ## Entries -/

namespace Ledger

def AuditRecord.IsJson (r : AuditRecord) : Prop := (Value.map r.attributes).IsJson

namespace Entry

/-- An entry whose stored row is the entry itself, if it has one. -/
structure IsPlain (e : Entry) : Prop where
  timestamp : e.timestamp.IsUtc
  recordedAt : e.recordedAt.IsUtc
  attributes : e.attributes.IsJson

/-- An entry with its times in UTC is stored with its attributes read back from JSON, and otherwise as it is. -/
theorem stored?_utc {e row : Entry} (ht : e.timestamp.IsUtc) (hr : e.recordedAt.IsUtc) (h : e.stored? = some row) :
    ∃ j, Json.ofValue Json.storage e.attributes = .ok j ∧ row = { e with attributes := j.toValue } := by
  unfold stored? at h
  rw [Calendar.Timestamp.keepTime?_of_isUtc ht, Calendar.Timestamp.keepTime?_of_isUtc hr] at h
  change ((Json.ofValue Json.storage e.attributes).toOption.bind fun j =>
    some { e with attributes := j.toValue }) = some row at h
  cases hv : Json.ofValue Json.storage e.attributes with
  | error x => rw [hv] at h; cases h
  | ok j =>
    rw [hv] at h
    cases h
    exact ⟨j, rfl, rfl⟩

theorem stored?_eq {e row : Entry} (he : e.IsPlain) (h : e.stored? = some row) : row = e := by
  obtain ⟨j, hj, rfl⟩ := stored?_utc he.timestamp he.recordedAt h
  rw [Json.toValue_ofValue _ he.attributes hj]

/-- The entry is linked behind a hash, and its hashes are those of its content and place. -/
structure IsSealed (e : Entry) (prevHash : Option String) : Prop where
  prevHash : e.prevHash = prevHash
  payloadHash : e.payloadHash? = .ok e.payloadHash
  hash : e.hash = Audit.chainHash e.loanId e.seq e.event e.payloadHash e.prevHash

theorem sealed?_eq {e e' : Entry} {prevHash : Option String} (h : e.sealed? prevHash = .ok e') :
    e'.IsSealed prevHash ∧ ∃ payloadHash hash, e' = { e with payloadHash, prevHash, hash } := by
  unfold sealed? at h
  obtain ⟨payloadHash, hp, h⟩ := bind_ok h
  cases h
  exact ⟨⟨rfl, hp, rfl⟩, payloadHash, _, rfl⟩

theorem checkEntry_of_sealed {e : Entry} {prevHash : Option String} (h : e.IsSealed prevHash) :
    AuditLog.checkEntry prevHash e = .ok none := by
  unfold AuditLog.checkEntry
  rw [if_neg (fun hne => hne h.prevHash), h.payloadHash]
  simp [bind, Except.bind, pure, Except.pure, ← h.hash]

end Entry

end Ledger

end LoanLedger
