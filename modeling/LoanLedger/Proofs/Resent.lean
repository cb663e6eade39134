import LoanLedger.Event.Key
import LoanLedger.Proofs.Reread
import LoanLedger.Proofs.Screened

/-!
# Events that are sent again

An event may be sent again as a mapping of its own fields, with its time as text in ISO form. Where it has no id, its
time is what tells it from other events, so the text has to read back.

* `Event.Restates es e` : a mapping holds the fields of an event; `Event.restated e` : such a mapping;
* `Event.reread e` : the event with its time as the text of the time reads;
* `Event.resent_read` : that is the event that is read when an event is sent again, whatever the clock shows. It is the
  event itself unless the offset of its time is below a second, and its identity and its key are unchanged unless it has
  no id besides;
* `Event.splinter_tells_apart` : where the offset is below a second and there is no id, the event that is read is taken
  for another one.
-/

namespace LoanLedger.Event

open Calendar (Timestamp)

/-- A mapping holds the fields of an event; an id that is missing is null or left out. -/
structure Restates (es : Entries) (e : Event) : Prop where
  type : es.field "type" = .text e.type
  loanId : es.field "loan_id" = .text e.loanId
  founderId : es.field "founder_id" = .text e.founderId
  occurredAt : es.field "occurred_at" = .text e.occurredAt.iso
  payload : es.field "payload" = .map e.payload
  actor : es.field "actor" = .text e.actor
  eventId : es.field "event_id" = Value.ofText? e.eventId

def restated (e : Event) : Entries :=
  [(.text "type", .text e.type), (.text "loan_id", .text e.loanId), (.text "founder_id", .text e.founderId),
    (.text "occurred_at", .text e.occurredAt.iso), (.text "payload", .map e.payload), (.text "actor", .text e.actor),
    (.text "event_id", Value.ofText? e.eventId)]

theorem restated_restates (e : Event) : Restates e.restated e := by
  constructor <;> rfl

def reread (e : Event) : Event :=
  { e with
    occurredAt := e.occurredAt.reread
    isAware := e.occurredAt.isAware_reread.trans e.isAware }

/-! ## Reading the fields -/

variable {es es' : Entries} {clock clock' : Clock} {e : Event} {name s : String}

theorem requiredText_of_isTidy (h : es.field name = .text s) (hs : Text.IsTidy s) : requiredText es name = .ok s := by
  rw [requiredText_of_text (by rw [h]; exact rfl), hs.trim_eq, if_neg hs.ne_empty]

theorem optionalText_of_isTidy {o : Option String} (h : es.field name = Value.ofText? o)
    (ho : ∀ s ∈ o, Text.IsTidy s) : optionalText es name = .ok o := by
  cases o with
  | none => exact optionalText_of_null h
  | some s =>
    have hs : es.field name = .text s := h
    rw [optionalText_of_ne_null (by rw [hs]; nofun), requiredText_of_isTidy hs (ho s rfl)]
    rfl

theorem payloadOf_map {payload : Entries} (h : es.field "payload" = .map payload) : payloadOf es = .ok payload := by
  rw [payloadOf, h]
  cases payload <;> rfl

/-- A text without a capital Z is left as it is. -/
theorem spellZulu_of_notMem (h : 'Z' ∉ s.toList) : spellZulu s = s := by
  have unchanged : ∀ c ∈ s.toList, (if c = 'Z' then "+00:00".toList else [c]) = [c] := by
    intro c hc
    rw [if_neg (by rintro rfl; exact h hc)]
  rw [spellZulu, List.flatMap_congr unchanged, List.flatMap_singleton', String.ofList_toList]

theorem timeIn_iso {t : Timestamp} (h : es.field "occurred_at" = .text t.iso) (ht : t.isAware = true) (clock : Clock) :
    timeIn es clock = .ok t.reread := by
  have reads : Timestamp.ofIso? (spellZulu t.iso) = .ok t.reread := by
    rw [spellZulu_of_notMem t.notMem_iso, t.ofIso?_iso]
  rw [timeIn_of_named (by rw [h]; nofun), h, timeOf_of_names (.text rfl reads), if_pos (t.isAware_reread.trans ht)]
  rfl

/-- The fields of a tidy event read back, but for what the text of its time does not hold. -/
theorem Restates.read (h : Restates es e) (ht : IsTidy e) (clock : Clock) : ofEntries? es clock = .ok e.reread :=
  ofEntries?_eq_ok.mpr
    { type := requiredText_of_isTidy h.type ht.type
      loanId := requiredText_of_isTidy h.loanId ht.loanId
      founderId := requiredText_of_isTidy h.founderId ht.founderId
      payload := payloadOf_map h.payload
      occurredAt := timeIn_iso h.occurredAt e.isAware clock
      actor := ⟨some e.actor, optionalText_of_isTidy h.actor (by simpa using ht.actor), rfl⟩
      eventId := optionalText_of_isTidy h.eventId ht.eventId }

/-! ## What stays the same -/

theorem reread_eq_iff : e.reread = e ↔ ¬ e.occurredAt.HasSplinter := by
  rw [← Timestamp.reread_eq_iff]
  constructor
  · exact fun h => congrArg occurredAt h
  · intro h
    obtain ⟨type, loanId, founderId, occurredAt, payload, actor, eventId, aware⟩ := e
    simpa [reread] using h

theorem reread_identity_eq_iff (ht : IsTidy e) :
    e.reread.identity = e.identity ↔ e.eventId ≠ none ∨ ¬ e.occurredAt.HasSplinter := by
  have hid : e.reread.eventId = e.eventId := rfl
  have htime : e.reread.occurredAt = e.occurredAt.reread := rfl
  unfold identity
  rw [hid, htime]
  cases h : e.eventId with
  | none =>
    rw [← Timestamp.reread_eq_iff]
    simp only [ne_eq, not_true_eq_false, false_or]
    exact ⟨Timestamp.iso_inj, congrArg Timestamp.iso⟩
  | some id =>
    -- an id that was read is not empty, so that it alone counts
    simp [(ht.eventId id h).ne_empty]

theorem reread_key_eq_iff : e.reread.key = e.key ↔ e.reread.identity = e.identity := by
  have hloan : e.reread.loanId = e.loanId := rfl
  have htype : e.reread.type = e.type := rfl
  rw [key, key, Key.join, Key.join, hloan, htype]
  exact ⟨fun h => (String.append_right_inj _).mp h, congrArg _⟩

/-- An event that was read and is sent again is read again. The same event comes out unless the offset of its time is
below a second; its identity and its key stay the same if it has an id, or if its offset is not below a second. -/
theorem resent_read (h : ofEntries? es clock = .ok e) (hr : Restates es' e) (clock' : Clock) :
    ofEntries? es' clock' = .ok e.reread ∧
      (e.reread = e ↔ ¬ e.occurredAt.HasSplinter) ∧
      (e.reread.identity = e.identity ↔ e.eventId ≠ none ∨ ¬ e.occurredAt.HasSplinter) ∧
      (e.reread.key = e.key ↔ e.eventId ≠ none ∨ ¬ e.occurredAt.HasSplinter) := by
  have ht : IsTidy e := (ofEntries?_eq_ok.mp h).isTidy
  exact ⟨hr.read ht clock', reread_eq_iff, reread_identity_eq_iff ht,
    reread_key_eq_iff.trans (reread_identity_eq_iff ht)⟩

/-- Half past nine on the first of March 2024, in a place half a second east of UTC. -/
def halfSecondEast : Timestamp :=
  ⟨⟨2024, 3, 1, by decide⟩, ⟨9, 30, 0, 0, by decide⟩, some ⟨500000, by decide⟩⟩

def knockInTheEast : Event :=
  ⟨"knock", "L1", "F1", halfSecondEast, [], systemActor, none, rfl⟩

theorem knockInTheEast_isRead (clock : Clock) :
    ofEntries? [(.text "type", .text "knock"), (.text "loan_id", .text "L1"), (.text "founder_id", .text "F1"),
      (.text "occurred_at", .time halfSecondEast)] clock = .ok knockInTheEast :=
  ofEntries?_eq_ok.mpr
    { type := rfl, loanId := rfl, founderId := rfl, payload := rfl, occurredAt := rfl, actor := ⟨none, rfl, rfl⟩
      eventId := rfl }

theorem resent_read_at_noon :
    (∃ es, ofEntries? es (Clock.startAt Clock.defaultStart) = .ok knockInTheEast) ∧
      Restates knockInTheEast.restated knockInTheEast ∧
      ofEntries? knockInTheEast.restated (Clock.startAt Clock.defaultStart) = .ok knockInTheEast.reread :=
  ⟨⟨_, knockInTheEast_isRead _⟩, restated_restates _,
    (resent_read (knockInTheEast_isRead (Clock.startAt Clock.defaultStart)) (restated_restates _) _).1⟩

/-- Sent again, the knock is read as another event, and recorded under another key. -/
theorem splinter_tells_apart :
    ∃ es e e', ofEntries? es (Clock.startAt Clock.defaultStart) = .ok e ∧
      ofEntries? e.restated (Clock.startAt Clock.defaultStart) = .ok e' ∧
      e' ≠ e ∧ e'.identity ≠ e.identity ∧ e'.key ≠ e.key := by
  have isRead := knockInTheEast_isRead (Clock.startAt Clock.defaultStart)
  have tidy := (ofEntries?_eq_ok.mp isRead).isTidy
  have splinter : knockInTheEast.occurredAt.HasSplinter := ⟨⟨500000, by decide⟩, rfl, by decide, by decide⟩
  have identity : knockInTheEast.reread.identity ≠ knockInTheEast.identity := fun h =>
    ((reread_identity_eq_iff tidy).mp h).elim (· rfl) (· splinter)
  exact ⟨_, knockInTheEast, knockInTheEast.reread, isRead, (restated_restates _).read tidy _,
    fun h => reread_eq_iff.mp h splinter, identity, fun h => identity (reread_key_eq_iff.mp h)⟩

end LoanLedger.Event
