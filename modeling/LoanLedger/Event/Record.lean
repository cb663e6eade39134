import LoanLedger.Event.Basic

/-!
# Events from their fields

* `Event.ofRecord? es` : the event whose fields are told by name and taken as they are: texts keep
  their blanks, and only the time is checked.
-/

namespace LoanLedger.Event

/-- Why fields make no event. -/
inductive RecordError where
  | failure (f : Failure)
  | arguments (e : ArgumentError)
  | payload (e : PairError)
  | notTime (sort : String)

/-- The report of fields that make no event. -/
def RecordError.report : RecordError → Report
  | .failure f => f.report
  | .arguments e => e.report
  | .payload e => e.report
  | .notTime sort => .plain "AttributeError" ("'" ++ sort ++ "' object has no attribute 'tzinfo'")

def signature : Signature :=
  ⟨"WorkflowEvent", ["type", "loan_id", "founder_id", "occurred_at"],
    ["payload", "actor", "event_id"]⟩

/-- The event whose fields are told by name. -/
def ofRecord? (es : Entries) : Except RecordError Event := do
  let named := es.map fun e => (e.1.label, e.2)
  let told ← (signature.bind? [] named).mapError .arguments
  let textOf (name : String) : Option String := (told.lookup name).bind fun v =>
    match v with
    | .null => none
    | v => some ((v.text?).getD v.label)
  let occurredAt ← match told.lookup "occurred_at" with
    | some (.time t) => pure t
    | v => throw (.notTime (v.getD .null).sort)
  let fields (payload : Entries) : Fields := {
    type := (textOf "type").getD ""
    loanId := (textOf "loan_id").getD ""
    founderId := (textOf "founder_id").getD ""
    occurredAt
    payload
    actor := (textOf "actor").getD systemActor
    eventId := textOf "event_id" }
  let _ ← (ofFields? (fields [])).mapError .failure
  let payload ← ((told.lookup "payload").elim (.ok []) Value.toEntries?).mapError .payload
  (ofFields? (fields payload)).mapError .failure

end LoanLedger.Event
