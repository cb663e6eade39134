import Mathlib.Data.List.DropRight
import LoanLedger.Event.Reader
import LoanLedger.Proofs.Results
import LoanLedger.Text.Blank

/-!
# What reading an event comes to

The fields of an event are looked at in one order, and reading ends at the first that is wrong.

* `Text.IsTidy s` : something in `s` is no blank, and no blank stands at either end: so is what trimming leaves
  (`Text.trim_isTidy`), and trimming leaves such a text as it is (`Text.IsTidy.trim_eq`);
* `Event.IsRead es clock e` : each part of an event is what its field holds; `ofEntries?_eq_ok` : such is the event that
  is read;
* `Event.IsTidy e` : the texts of an event are neither blank nor padded, and its time has an offset;
* `Event.fieldOrder` : the order in which the fields are looked at;
* `Event.Offends es name f` : what is wrong with a field of a mapping, and the failure that tells it;
* `Event.Screened es names P x` : the result `x` is one for which none of the fields `names` is wrong, or the failure of
  the first of them that is; `Screened.bind` : one look after another;
* `Event.reading_screened` : reading an event comes to that, whatever the mapping holds, as long as the clock shows a
  time with an offset.
-/

/-! ## Trimmed texts -/

namespace LoanLedger.Text

/-- A text that is not blank and has no blanks at its ends. -/
structure IsTidy (s : String) : Prop where
  notBlank : ∃ c ∈ s.toList, isBlank c = false
  front : ∀ c ∈ s.toList.head?, isBlank c = false
  back : ∀ c ∈ s.toList.getLast?, isBlank c = false

variable {s : String}

theorem trimChars_eq (cs : List Char) : trimChars cs = (cs.dropWhile isBlank).rdropWhile isBlank := rfl

theorem IsTidy.ne_empty (h : IsTidy s) : s ≠ "" := by
  rintro rfl
  obtain ⟨c, hc, -⟩ := h.notBlank
  cases hc

theorem trimChars_eq_nil (cs : List Char) : trimChars cs = [] ↔ ∀ c ∈ cs, isBlank c = true := by
  -- when only blanks are left, they were all in front
  rw [trimChars_eq, List.rdropWhile_eq_nil_iff, ← List.dropWhile_eq_nil_iff, List.dropWhile_idempotent,
    List.dropWhile_eq_nil_iff]

theorem trim_eq_empty : trim s = "" ↔ ∀ c ∈ s.toList, isBlank c = true := by
  rw [← trimChars_eq_nil, trim, ← String.ofList_nil, String.ofList_inj]

theorem front_trimChars (cs : List Char) : ∀ c ∈ (trimChars cs).head?, isBlank c = false := by
  intro c hc
  -- the front of what is left is the front of what was left when the blanks in front were gone
  obtain ⟨rest, hrest⟩ := List.rdropWhile_prefix isBlank (cs.dropWhile isBlank)
  have front : (cs.dropWhile isBlank).head? = some c := by
    rw [← hrest, ← trimChars_eq, List.head?_append, Option.mem_def.mp hc]
    rfl
  have := List.head?_dropWhile_not isBlank cs
  rw [front] at this
  simpa using this

theorem back_trimChars (cs : List Char) : ∀ c ∈ (trimChars cs).getLast?, isBlank c = false := by
  intro c hc
  have hne : trimChars cs ≠ [] := by
    rintro h
    rw [h] at hc
    cases hc
  rw [List.getLast?_eq_some_getLast hne] at hc
  obtain rfl := Option.some.inj hc
  exact Bool.eq_false_iff.mpr (List.rdropWhile_last_not isBlank (cs.dropWhile isBlank) hne)

theorem trim_isTidy (h : trim s ≠ "") : IsTidy (trim s) := by
  have front := front_trimChars s.toList
  have back := back_trimChars s.toList
  refine ⟨?_, by rwa [trim, String.toList_ofList], by rwa [trim, String.toList_ofList]⟩
  cases ht : (trim s).toList with
  | nil => exact absurd (String.toList_eq_nil_iff.mp ht) h
  | cons c cs =>
    rw [trim, String.toList_ofList] at ht
    exact ⟨c, List.mem_cons_self, front c (by rw [ht]; rfl)⟩

theorem IsTidy.trim_eq (h : IsTidy s) : trim s = s := by
  have front : s.toList.dropWhile isBlank = s.toList := by
    cases hs : s.toList with
    | nil => rfl
    | cons c cs => exact List.dropWhile_cons_of_neg (by rw [h.front c (by rw [hs]; rfl)]; decide)
  have back : s.toList.rdropWhile isBlank = s.toList := by
    rw [List.rdropWhile_eq_self_iff]
    intro hne hc
    rw [h.back _ (List.getLast?_eq_some_getLast hne)] at hc
    cases hc
  rw [trim, trimChars_eq, front, back, String.ofList_toList]

end LoanLedger.Text

/-! ## Reading an event -/

namespace LoanLedger.Event

open Calendar (Timestamp)

/-! ## The event that is read -/

/-- The time of an event that is being read: the one that is named, or else the one that the clock shows. -/
def timeIn (es : Entries) (clock : Clock) : Except Error Timestamp :=
  match es.field "occurred_at" with
  | .null => clock.now?.mapError .clock
  | v => lift (timeOf v)

/-- Each part of the event is what its field holds. -/
structure IsRead (es : Entries) (clock : Clock) (e : Event) : Prop where
  type : requiredText es "type" = .ok e.type
  loanId : requiredText es "loan_id" = .ok e.loanId
  founderId : requiredText es "founder_id" = .ok e.founderId
  payload : payloadOf es = .ok e.payload
  occurredAt : timeIn es clock = .ok e.occurredAt
  actor : ∃ actor, optionalText es "actor" = .ok actor ∧ e.actor = actor.getD systemActor
  eventId : optionalText es "event_id" = .ok e.eventId

theorem timeIn_of_null {es : Entries} {clock : Clock} (h : es.field "occurred_at" = .null) :
    timeIn es clock = clock.now?.mapError .clock := by
  rw [timeIn, h]

theorem timeIn_of_named {es : Entries} {clock : Clock} (h : es.field "occurred_at" ≠ .null) :
    timeIn es clock = lift (timeOf (es.field "occurred_at")) := by
  unfold timeIn
  split
  · next hv => exact absurd hv h
  · rfl

/-- The time stands on its own between the other fields. -/
theorem ofEntries?_eq (es : Entries) (clock : Clock) : ofEntries? es clock = (do
    let type ← lift (requiredText es "type")
    let loanId ← lift (requiredText es "loan_id")
    let founderId ← lift (requiredText es "founder_id")
    let payload ← lift (payloadOf es)
    let occurredAt ← timeIn es clock
    let actor ← lift (optionalText es "actor")
    let eventId ← lift (optionalText es "event_id")
    lift (ofFields? ⟨type, loanId, founderId, occurredAt, payload, actor.getD systemActor, eventId⟩)) := by
  unfold ofEntries?
  split
  · next hv => rw [timeIn_of_null hv]
  · next hv => rw [timeIn_of_named hv]

theorem ofFields?_ok {fields : Fields} {e : Event} (h : ofFields? fields = .ok e) :
    fields = ⟨e.type, e.loanId, e.founderId, e.occurredAt, e.payload, e.actor, e.eventId⟩ := by
  unfold ofFields? at h
  split at h
  · cases h
    rfl
  · cases h

theorem ofFields?_event (e : Event) :
    ofFields? ⟨e.type, e.loanId, e.founderId, e.occurredAt, e.payload, e.actor, e.eventId⟩ = .ok e :=
  dif_pos e.isAware

/-- An event is read from a mapping exactly when each of its parts is. -/
theorem ofEntries?_eq_ok {es : Entries} {clock : Clock} {e : Event} :
    ofEntries? es clock = .ok e ↔ IsRead es clock e := by
  rw [ofEntries?_eq]
  constructor
  · intro h
    obtain ⟨type, htype, h⟩ := bind_ok h
    obtain ⟨loanId, hloan, h⟩ := bind_ok h
    obtain ⟨founderId, hfounder, h⟩ := bind_ok h
    obtain ⟨payload, hpayload, h⟩ := bind_ok h
    obtain ⟨occurredAt, htime, h⟩ := bind_ok h
    obtain ⟨actor, hactor, h⟩ := bind_ok h
    obtain ⟨eventId, hid, h⟩ := bind_ok h
    obtain ⟨rfl, rfl, rfl, rfl, rfl, ha, rfl⟩ := Fields.mk.inj (ofFields?_ok (mapError_ok h))
    exact ⟨mapError_ok htype, mapError_ok hloan, mapError_ok hfounder, mapError_ok hpayload, htime,
      ⟨actor, mapError_ok hactor, ha.symm⟩, mapError_ok hid⟩
  · rintro ⟨htype, hloan, hfounder, hpayload, htime, ⟨actor, hactor, ha⟩, hid⟩
    rw [htype, hloan, hfounder, hpayload, htime, hactor, hid]
    change lift (ofFields? ⟨e.type, e.loanId, e.founderId, e.occurredAt, e.payload, actor.getD systemActor,
      e.eventId⟩) = .ok e
    rw [← ha, ofFields?_event]
    rfl

/-! ## What can be wrong -/

def requiredTexts : List String := ["type", "loan_id", "founder_id"]

def optionalTexts : List String := ["actor", "event_id"]

def fieldOrder : List String :=
  requiredTexts ++ ["payload", "occurred_at"] ++ optionalTexts

/-- A value names a time: it is one, or it is a text that reads as one. -/
inductive Names : Value → Timestamp → Prop where
  | time {t} : Names (.time t) t
  | text {v s t} : v.text? = some s → Timestamp.ofIso? (spellZulu s) = .ok t → Names v t

/-- What is wrong with a field, and the failure that tells it. -/
inductive Offends (es : Entries) : String → Failure → Prop where
  | absent {name} : name ∈ requiredTexts → es.field name = .null → Offends es name (.missingField name)
  | blank {name s} : name ∈ requiredTexts ++ optionalTexts → (es.field name).text? = some s →
    (∀ c ∈ s.toList, Text.isBlank c = true) → Offends es name (.missingField name)
  | noText {name} : name ∈ requiredTexts ++ optionalTexts → es.field name ≠ .null →
    (es.field name).text? = none →
    Offends es name (.invalidField name ("expected string, got " ++ (es.field name).sort))
  /-- A payload that counts as absent is none of these. -/
  | noMapping : (es.field "payload").isTruthy = true → (∀ entries, es.field "payload" ≠ .map entries) →
    Offends es "payload" (.invalidField "payload" "expected an object")
  | noTime : es.field "occurred_at" ≠ .null → (es.field "occurred_at").text? = none →
    (∀ t, es.field "occurred_at" ≠ .time t) →
    Offends es "occurred_at" (.invalidField "occurred_at"
      ("expected ISO-8601 string, got " ++ (es.field "occurred_at").sort))
  | unreadable {s e} : (es.field "occurred_at").text? = some s → Timestamp.ofIso? (spellZulu s) = .error e →
    Offends es "occurred_at" (.invalidField "occurred_at" e.message)
  | noOffset {t} : Names (es.field "occurred_at") t → t.offset = none →
    Offends es "occurred_at" (.invalidField "occurred_at" "must include a UTC offset")

theorem Offends.names {es : Entries} {name : String} {f : Failure} (h : Offends es name f) :
    f = .missingField name ∨ ∃ reason, f = .invalidField name reason := by
  cases h with
  | absent | blank => exact .inl rfl
  | noText | noMapping | noTime | unreadable | noOffset => exact .inr ⟨_, rfl⟩

/-! ## Looking at fields in order -/

/-- None of the fields is wrong, and the result is as it should be, or the result is the failure of the first field that
is wrong. -/
inductive Screened {α : Type} (es : Entries) (names : List String) (P : α → Prop) : Except Error α → Prop where
  | passed {a} : (∀ name ∈ names, ∀ f, ¬ Offends es name f) → P a → Screened es names P (.ok a)
  | refused {before name after f} : names = before ++ name :: after → (∀ n ∈ before, ∀ g, ¬ Offends es n g) →
    Offends es name f → Screened es names P (.error (.failure f))

section

variable {α β : Type} {es : Entries} {P : α → Prop} {Q : β → Prop}

/-- The fields of a second look come after those of the first. -/
theorem Screened.bind {first second : List String} {x : Except Error α} {g : α → Except Error β}
    (hx : Screened es first P x) (hg : ∀ a, P a → Screened es second Q (g a)) :
    Screened es (first ++ second) Q (x >>= g) := by
  cases hx with
  | refused hn hbefore hf => exact .refused (by rw [hn, List.append_assoc, List.cons_append]) hbefore hf
  | @passed a clear ha =>
    change Screened es (first ++ second) Q (g a)
    have hy := hg a ha
    generalize g a = y at hy
    cases hy with
    | passed clear' hb =>
      exact .passed (fun n hn => (List.mem_append.mp hn).elim (clear n) (clear' n)) hb
    | refused hn hbefore hf =>
      refine .refused (by rw [hn, List.append_assoc]) (fun n hn => ?_) hf
      exact (List.mem_append.mp hn).elim (clear n) (hbefore n)

/-- Nothing is looked at when a result is turned into another one. -/
theorem Screened.bind_of_ok {names : List String} {x : Except Error α} {g : α → Except Error β}
    (hx : Screened es names P x) (hg : ∀ a, P a → ∃ b, g a = .ok b ∧ Q b) : Screened es names Q (x >>= g) := by
  cases hx with
  | refused hn hbefore hf => exact .refused hn hbefore hf
  | @passed a clear ha =>
    obtain ⟨b, hb, hq⟩ := hg a ha
    change Screened es names Q (g a)
    rw [hb]
    exact .passed clear hq

/-- A look at a single field fails exactly when that field is wrong. -/
theorem Screened.single {name : String} {x : Except Failure α} (h : ∀ f, x = .error f ↔ Offends es name f) :
    Screened es [name] (fun _ => True) (lift x) := by
  cases x with
  | ok a =>
    have clear : ∀ f, ¬ Offends es name f := fun f hf => nomatch (h f).mpr hf
    exact .passed (by simpa using clear) trivial
  | error f => exact .refused (List.nil_append [name]).symm (by simp) ((h f).mp rfl)

/-- What every result has may be said of the one that there is. -/
theorem Screened.of_ok {names : List String} {x : Except Error α} {P' : α → Prop} (hx : Screened es names P x)
    (h : ∀ a, x = .ok a → P' a) : Screened es names P' x := by
  cases hx with
  | passed clear _ => exact .passed clear (h _ rfl)
  | refused hn hbefore hf => exact .refused hn hbefore hf

end

/-! ## A look at each field -/

section

variable {es : Entries} {name : String} {f : Failure}

theorem requiredText_of_null (h : es.field name = .null) : requiredText es name = .error (.missingField name) := by
  rw [requiredText, h]

theorem requiredText_of_noText (hv : es.field name ≠ .null) (h : (es.field name).text? = none) :
    requiredText es name = .error (.invalidField name ("expected string, got " ++ (es.field name).sort)) := by
  unfold requiredText
  split
  · next h => exact absurd h hv
  · rw [h]

theorem requiredText_of_text {s : String} (h : (es.field name).text? = some s) :
    requiredText es name = if Text.trim s = "" then .error (.missingField name) else .ok (Text.trim s) := by
  unfold requiredText
  split
  · next hv => rw [hv] at h; cases h
  · rw [h]

/-- A text that is read is tidy. -/
theorem requiredText_isTidy {s : String} (h : requiredText es name = .ok s) : Text.IsTidy s := by
  by_cases hv : es.field name = .null
  · rw [requiredText_of_null hv] at h
    cases h
  · cases ht : (es.field name).text? with
    | none =>
      rw [requiredText_of_noText hv ht] at h
      cases h
    | some t =>
      rw [requiredText_of_text ht] at h
      split at h
      · cases h
      · next hne =>
        cases h
        exact Text.trim_isTidy hne

/-- Reading a text fails exactly when it is wrong; a text that may be left out is only read when it is there. -/
theorem requiredText_error_iff (hn : name ∈ requiredTexts ++ optionalTexts)
    (hnull : es.field name = .null → name ∈ requiredTexts) :
    requiredText es name = .error f ↔ Offends es name f := by
  constructor
  · intro h
    by_cases hv : es.field name = .null
    · rw [requiredText_of_null hv] at h
      cases h
      exact .absent (hnull hv) hv
    · cases ht : (es.field name).text? with
      | none =>
        rw [requiredText_of_noText hv ht] at h
        cases h
        exact .noText hn hv ht
      | some t =>
        rw [requiredText_of_text ht] at h
        split at h
        · next he =>
          cases h
          exact .blank hn ht (Text.trim_eq_empty.mp he)
        · cases h
  · intro h
    cases h with
    | absent _ hv => exact requiredText_of_null hv
    | noText _ hv ht => exact requiredText_of_noText hv ht
    | blank _ ht hb => rw [requiredText_of_text ht, if_pos (Text.trim_eq_empty.mpr hb)]
    | noMapping | noTime | unreadable | noOffset => exact absurd hn (by decide)

theorem not_required (hn : name ∈ optionalTexts) : name ∉ requiredTexts := by
  have : ∀ n ∈ optionalTexts, n ∉ requiredTexts := by decide
  exact this name hn

theorem optionalText_of_null (h : es.field name = .null) : optionalText es name = .ok none := by
  rw [optionalText, h]

theorem optionalText_of_ne_null (h : es.field name ≠ .null) :
    optionalText es name = (requiredText es name).map some := by
  unfold optionalText
  split
  · next hv => exact absurd hv h
  · rfl

theorem optionalText_isTidy {o : Option String} (h : optionalText es name = .ok o) : ∀ s ∈ o, Text.IsTidy s := by
  by_cases hv : es.field name = .null
  · rw [optionalText_of_null hv] at h
    cases h
    simp
  · rw [optionalText_of_ne_null hv] at h
    obtain ⟨s, hs, rfl⟩ := map_ok h
    simpa using requiredText_isTidy hs

theorem optionalText_error_iff (hn : name ∈ optionalTexts) :
    optionalText es name = .error f ↔ Offends es name f := by
  have hmem : name ∈ requiredTexts ++ optionalTexts := List.mem_append_right _ hn
  by_cases hv : es.field name = .null
  · -- one that is left out is never wrong
    rw [optionalText_of_null hv]
    refine iff_of_false nofun fun h => ?_
    cases h with
    | absent hr => exact absurd hr (not_required hn)
    | noText _ hv' => exact hv' hv
    | blank _ ht => rw [hv] at ht; cases ht
    | noMapping | noTime | unreadable | noOffset => exact absurd hmem (by decide)
  · rw [optionalText_of_ne_null hv, ← requiredText_error_iff hmem fun h => absurd h hv]
    exact ⟨map_error, fun h => by rw [h]; rfl⟩

theorem Offends.payload (h : Offends es "payload" f) :
    (es.field "payload").isTruthy = true ∧ (∀ entries, es.field "payload" ≠ .map entries) ∧
      f = .invalidField "payload" "expected an object" := by
  generalize hn : "payload" = n at h
  cases h with
  | noMapping ht hm => exact ⟨ht, hm, rfl⟩
  | absent hr => exact absurd hr (hn ▸ by decide)
  | blank hr | noText hr => exact absurd hr (hn ▸ by decide)
  | noTime | unreadable | noOffset => exact absurd hn (by decide)

theorem payloadOf_error_iff : payloadOf es = .error f ↔ Offends es "payload" f := by
  unfold payloadOf
  constructor
  · intro h
    cases ht : (es.field "payload").isTruthy with
    | false => simp [ht] at h
    | true =>
      simp only [ht, Bool.not_true, Bool.false_eq_true, if_false] at h
      split at h
      · cases h
      · next hm =>
        cases h
        exact .noMapping ht hm
  · intro h
    obtain ⟨ht, hm, rfl⟩ := h.payload
    simp only [ht, Bool.not_true, Bool.false_eq_true, if_false]

theorem timeOf_of_names {v : Value} {t : Timestamp} (h : Names v t) :
    timeOf v = if t.isAware then .ok t else .error (.invalidField "occurred_at" "must include a UTC offset") := by
  cases h with
  | time => rfl
  | text hs ht =>
    unfold timeOf
    split
    · next => cases hs
    · rw [hs]
      simp only [ht]
      rfl

theorem timeOf_of_noTime {v : Value} (ht : v.text? = none) (h : ∀ t, v ≠ .time t) :
    timeOf v = .error (.invalidField "occurred_at" ("expected ISO-8601 string, got " ++ v.sort)) := by
  unfold timeOf
  split
  · next t => exact absurd rfl (h t)
  · rw [ht]
    rfl

theorem timeOf_of_unreadable {v : Value} {s : String} {e : Calendar.Error} (hs : v.text? = some s)
    (he : Timestamp.ofIso? (spellZulu s) = .error e) :
    timeOf v = .error (.invalidField "occurred_at" e.message) := by
  unfold timeOf
  split
  · next => cases hs
  · rw [hs]
    simp only [he]
    rfl

/-- A value names a time, or it is neither a time nor a text, or a text that does not read as a time. -/
theorem names_or (v : Value) :
    (∃ t, Names v t) ∨ (v.text? = none ∧ ∀ t, v ≠ .time t) ∨
      ∃ s e, v.text? = some s ∧ Timestamp.ofIso? (spellZulu s) = .error e := by
  cases hs : v.text? with
  | some s =>
    cases ht : Timestamp.ofIso? (spellZulu s) with
    | ok t => exact .inl ⟨t, .text hs ht⟩
    | error e => exact .inr (.inr ⟨s, e, rfl, ht⟩)
  | none =>
    by_cases h : ∃ t, v = .time t
    · obtain ⟨t, rfl⟩ := h
      exact .inl ⟨t, .time⟩
    · exact .inr (.inl ⟨rfl, fun t ht => h ⟨t, ht⟩⟩)

theorem Offends.time (h : Offends es "occurred_at" f) :
    es.field "occurred_at" ≠ .null ∧ timeOf (es.field "occurred_at") = .error f := by
  generalize hn : "occurred_at" = n at h
  cases h with
  | noTime hv ht h => exact ⟨hv, timeOf_of_noTime ht h⟩
  | unreadable hs he =>
    refine ⟨fun h => ?_, timeOf_of_unreadable hs he⟩
    rw [h] at hs
    cases hs
  | noOffset ht ho =>
    refine ⟨fun h => ?_, ?_⟩
    · rw [h] at ht
      cases ht with
      | text hs => cases hs
    · rw [timeOf_of_names ht, if_neg (by rw [Timestamp.isAware, ho]; decide)]
  | absent hr => exact absurd hr (hn ▸ by decide)
  | blank hr | noText hr => exact absurd hr (hn ▸ by decide)
  | noMapping => exact absurd hn (by decide)

theorem timeOf_error_iff (hv : es.field "occurred_at" ≠ .null) :
    timeOf (es.field "occurred_at") = .error f ↔ Offends es "occurred_at" f := by
  refine ⟨fun h => ?_, fun h => h.time.2⟩
  rcases names_or (es.field "occurred_at") with ⟨t, ht⟩ | ⟨hs, hnt⟩ | ⟨s, e, hs, he⟩
  · rw [timeOf_of_names ht] at h
    split at h
    · cases h
    · next ha =>
      cases h
      exact .noOffset ht (by simpa [Timestamp.isAware] using ha)
  · rw [timeOf_of_noTime hs hnt] at h
    cases h
    exact .noTime hv hs hnt
  · rw [timeOf_of_unreadable hs he] at h
    cases h
    exact .unreadable hs he

theorem timeOf_isAware {t : Timestamp} (h : timeOf (es.field "occurred_at") = .ok t) : t.isAware = true := by
  rcases names_or (es.field "occurred_at") with ⟨t', ht⟩ | ⟨hs, hnt⟩ | ⟨s, e, hs, he⟩
  · rw [timeOf_of_names ht] at h
    split at h
    · next ha =>
      cases h
      exact ha
    · cases h
  · rw [timeOf_of_noTime hs hnt] at h
    cases h
  · rw [timeOf_of_unreadable hs he] at h
    cases h

end

/-! ## The whole event -/

/-- The texts of an event are neither blank nor padded, and its time has an offset. -/
structure IsTidy (e : Event) : Prop where
  type : Text.IsTidy e.type
  loanId : Text.IsTidy e.loanId
  founderId : Text.IsTidy e.founderId
  actor : Text.IsTidy e.actor
  eventId : ∀ id ∈ e.eventId, Text.IsTidy id
  offset : e.occurredAt.offset ≠ none

theorem systemActor_isTidy : Text.IsTidy systemActor where
  notBlank := ⟨'s', by decide, by decide⟩
  front c hc := by
    have first : systemActor.toList.head? = some 's' := by decide
    obtain rfl := Option.some.inj (first.symm.trans hc)
    decide
  back c hc := by
    have last : systemActor.toList.getLast? = some 'm' := by decide
    obtain rfl := Option.some.inj (last.symm.trans hc)
    decide

variable {es : Entries} {clock : Clock} {now : Timestamp}

theorem IsRead.isTidy {e : Event} (h : IsRead es clock e) : IsTidy e where
  type := requiredText_isTidy h.type
  loanId := requiredText_isTidy h.loanId
  founderId := requiredText_isTidy h.founderId
  actor := by
    obtain ⟨actor, hactor, he⟩ := h.actor
    rw [he]
    cases actor with
    | none => exact systemActor_isTidy
    | some a => exact optionalText_isTidy hactor a rfl
  eventId := optionalText_isTidy h.eventId
  offset := Option.isSome_iff_ne_none.mp e.isAware

/-- An event that names no time happened now, and then no time is wrong. -/
theorem timeIn_screened (hnow : clock.now? = .ok now) (haware : now.isAware = true) (es : Entries) :
    Screened es ["occurred_at"] (·.isAware = true) (timeIn es clock) := by
  by_cases hv : es.field "occurred_at" = .null
  · rw [timeIn_of_null hv, hnow]
    refine .passed (fun n hn f hf => ?_) haware
    rw [List.mem_singleton.mp hn] at hf
    exact hf.time.1 hv
  · rw [timeIn_of_named hv]
    exact (Screened.single fun _ => timeOf_error_iff hv).of_ok fun t ht => timeOf_isAware (mapError_ok ht)

/-- Reading an event yields a tidy event and no field is wrong, or the failure of the first field that is wrong. -/
theorem reading_screened (hnow : clock.now? = .ok now) (haware : now.isAware = true) (es : Entries) :
    Screened es fieldOrder IsTidy (ofEntries? es clock) := by
  have required {name : String} (hn : name ∈ requiredTexts) :
      Screened es [name] (fun _ => True) (lift (requiredText es name)) :=
    .single fun _ => requiredText_error_iff (List.mem_append_left _ hn) fun _ => hn
  have optional {name : String} (hn : name ∈ optionalTexts) :
      Screened es [name] (fun _ => True) (lift (optionalText es name)) :=
    .single fun _ => optionalText_error_iff hn
  have payload : Screened es ["payload"] (fun _ => True) (lift (payloadOf es)) :=
    .single fun _ => payloadOf_error_iff
  have screened : Screened es fieldOrder (fun _ => True) (ofEntries? es clock) := by
    rw [ofEntries?_eq]
    refine (required (by decide)).bind fun type _ => ?_
    refine (required (by decide)).bind fun loanId _ => ?_
    refine (required (by decide)).bind fun founderId _ => ?_
    refine payload.bind fun payload _ => ?_
    refine (timeIn_screened hnow haware es).bind fun occurredAt hoffset => ?_
    refine (optional (by decide)).bind fun actor _ => ?_
    refine (optional (by decide)).bind_of_ok fun eventId _ => ?_
    -- the time has an offset, so that nothing is left to be found wrong
    rw [ofFields?, dif_pos hoffset]
    exact ⟨_, rfl, trivial⟩
  exact screened.of_ok fun e h => (ofEntries?_eq_ok.mp h).isTidy

/-- A mapping that names no time. -/
def knocked : Entries :=
  [(.text "type", .text "knock"), (.text "loan_id", .text " L1"), (.text "founder_id", .text "F1"),
    (.text "payload", .map [(.text "loud", .bool true)]), (.text "actor", .text "ops"), (.text "event_id", .text "1")]

/-- A mapping with a number as payload and a blank id. -/
def muddled : Entries :=
  [(.text "type", .text "knock"), (.text "loan_id", .text "L1"), (.text "founder_id", .text "F1"),
    (.text "payload", .int 5), (.text "event_id", .text " ")]

/-- The event of the one happens now; of the two fields that are wrong in the other, the payload is told. -/
theorem reading_screened_at_noon :
    (Clock.startAt Clock.defaultStart).now? = .ok Clock.defaultStart ∧ Clock.defaultStart.isAware = true ∧
      (∃ e, ofEntries? knocked (Clock.startAt Clock.defaultStart) = .ok e ∧ e.loanId = "L1" ∧
        e.occurredAt = Clock.defaultStart ∧ IsTidy e ∧
        ∀ name ∈ fieldOrder, ∀ f, ¬ Offends knocked name f) ∧
      Offends muddled "event_id" (.missingField "event_id") ∧
      Screened muddled fieldOrder IsTidy (ofEntries? muddled (Clock.startAt Clock.defaultStart)) ∧
      ofEntries? muddled (Clock.startAt Clock.defaultStart) =
        .error (.failure (.invalidField "payload" "expected an object")) := by
  have blank : Offends muddled "event_id" (.missingField "event_id") :=
    .blank (s := " ") (by decide) (by decide) (List.forall_mem_singleton.mpr (by decide))
  have now : (Clock.startAt Clock.defaultStart).now? = .ok Clock.defaultStart := by rfl
  have aware : Clock.defaultStart.isAware = true := by decide
  refine ⟨now, aware, ?_, blank, reading_screened now aware _, by rfl⟩
  have read : (ofEntries? knocked (Clock.startAt Clock.defaultStart)).toOption.map
      (fun e => (e.loanId, e.occurredAt)) = some ("L1", Clock.defaultStart) := by decide +kernel
  obtain ⟨e, he, parts⟩ := Option.map_eq_some_iff.mp read
  obtain ⟨hloan, htime⟩ := Prod.mk.inj parts
  have screened : Screened knocked fieldOrder IsTidy (ofEntries? knocked (Clock.startAt Clock.defaultStart)) :=
    reading_screened now aware knocked
  rw [ok_of_toOption he] at screened
  cases screened with
  | passed clear tidy => exact ⟨e, ok_of_toOption he, hloan, htime, tidy, clear⟩

end LoanLedger.Event
