import LoanLedger.Calendar.IsoReader
import LoanLedger.Clock
import LoanLedger.Event.Basic

/-!
# Reading events

* `Event.ofEntries? es clock` : the event that a mapping describes; the clock tells the time of an
  event that names none.

Type, loan and founder must be there. The fields are looked at in the order type, loan, founder,
payload, time, actor, id, and the first that is wrong is the one that is told.
-/

namespace LoanLedger.Event

open Calendar (Timestamp)

/-- Why a mapping describes no event. -/
inductive Error where
  | failure (f : Failure)
  /-- The event names no time, and the clock shows none. -/
  | clock (e : Clock.Error)

/-- The report of a mapping that describes no event. -/
def Error.report : Error → Report
  | .failure f => f.report
  | .clock e => e.report

/-- A text field without blanks at its ends; an empty one counts as missing. -/
def requiredText (es : Entries) (name : String) : Except Failure String :=
  match es.field name with
  | .null => .error (.missingField name)
  | v => match v.text? with
    | none => .error (.invalidField name ("expected string, got " ++ v.sort))
    | some s =>
      let s := Text.trim s
      if s = "" then .error (.missingField name) else .ok s

def optionalText (es : Entries) (name : String) : Except Failure (Option String) :=
  match es.field name with
  | .null => .ok none
  | _ => (requiredText es name).map some

/-- The entries of the payload; one that counts as absent is empty. -/
def payloadOf (es : Entries) : Except Failure Entries :=
  let v := es.field "payload"
  if !v.isTruthy then .ok []
  else match v with
    | .map es => .ok es
    | _ => .error (.invalidField "payload" "expected an object")

/-- The text with every `Z` spelled out as the offset that it stands for. -/
def spellZulu (s : String) : String :=
  String.ofList (s.toList.flatMap fun c => if c = 'Z' then "+00:00".toList else [c])

/-- The time that a field names, which must have an offset. -/
def timeOf (v : Value) : Except Failure Timestamp := do
  let t ← match v with
    | .time t => pure t
    | v => match v.text? with
      | none =>
        throw (.invalidField "occurred_at" ("expected ISO-8601 string, got " ++ v.sort))
      | some s => match Timestamp.ofIso? (spellZulu s) with
        | .ok t => pure t
        | .error e => throw (.invalidField "occurred_at" e.message)
  if t.isAware then pure t else throw (.invalidField "occurred_at" "must include a UTC offset")

/-- A step that can only fail with a failure, among steps that can fail otherwise. -/
def lift {α : Type} (x : Except Failure α) : Except Error α :=
  x.mapError .failure

/-- The event that a mapping describes; it happened now when the mapping names no time. -/
def ofEntries? (es : Entries) (clock : Clock) : Except Error Event := do
  let type ← lift (requiredText es "type")
  let loanId ← lift (requiredText es "loan_id")
  let founderId ← lift (requiredText es "founder_id")
  let payload ← lift (payloadOf es)
  let occurredAt ← match es.field "occurred_at" with
    | .null => clock.now?.mapError .clock
    | v => lift (timeOf v)
  let actor ← lift (optionalText es "actor")
  let eventId ← lift (optionalText es "event_id")
  lift (ofFields? ⟨type, loanId, founderId, occurredAt, payload, actor.getD systemActor, eventId⟩)

end LoanLedger.Event
