import LoanLedger.Engine.Dispatch

/-!
# Outcomes

* `Decision` : what an event did to its loan: it moved it, was ignored, or had moved it before;
* `Outcome` : the decision with the loan, the type and the key of the event;
* `Outcome.trace o` : the fields of the record that tells of it.
-/

namespace LoanLedger.Engine

inductive Decision where
  /-- It led from a state to another one by these actions. -/
  | applied (fromState toState : String) (results : List ActionResult)
  /-- Nothing leads out of the state on events of this type. -/
  | ignored (fromState : String)
  | duplicate (fromState toState : Value)

namespace Decision

def word : Decision → String
  | applied .. => "applied"
  | ignored _ => "ignored"
  | duplicate .. => "duplicate"

def fromState : Decision → Value
  | applied s _ _ => .text s
  | ignored s => .text s
  | duplicate s _ => s

/-- The state that the event led to, null if it led nowhere. -/
def toState : Decision → Value
  | applied _ s _ => .text s
  | ignored _ => .null
  | duplicate _ s => s

def results : Decision → List ActionResult
  | applied _ _ rs => rs
  | _ => []

end Decision

structure Outcome where
  loanId : String
  eventType : String
  eventKey : String
  decision : Decision

namespace Outcome

def of (e : Event) (d : Decision) : Outcome :=
  ⟨e.loanId, e.type, e.key, d⟩

/-- Whether the event moved the loan. -/
def isApplied (o : Outcome) : Bool :=
  match o.decision with
  | .applied .. => true
  | _ => false

/-- The requests of the actions, in order. -/
def disbursements (o : Outcome) : List ActionResult :=
  o.decision.results.filter (·.isRecognized)

def createdIds (o : Outcome) : List String :=
  (o.disbursements.filter (·.isCreated)).filterMap (·.disbursementId?)

/-- The triggers of the actions that nobody handles. -/
def unknownActions (o : Outcome) : List String :=
  (o.decision.results.filter (!·.isRecognized)).map (·.action.trigger)

/-- The key under which the transition is recorded; an event that is ignored leaves none. -/
def key? (o : Outcome) : Option String :=
  match o.decision with
  | .ignored _ => none
  | _ => some o.eventKey

def reason (o : Outcome) : String :=
  match o.decision with
  | .applied a b _ => "Transitioned '" ++ a ++ "' -> '" ++ b ++ "'"
  | .ignored a => "No transition from '" ++ a ++ "' on '" ++ o.eventType ++ "'"
  | .duplicate .. => "Transition already committed for this event"

end Outcome

/-! ## Traces -/

/-- The fields of a trace that are there in any case. They are made for versions of any length, as `Definition.label`
is. -/
def traceFields (d : Workflow.Definition) (e : Event) (outcome reason : String)
    (created unknown : Nat) : List (String × Value) := [
  ("trace_type", .text "WORKFLOW_TRANSITION"),
  ("workflow", .text d.label),
  ("event_occurred_at", .text e.occurredAt.iso),
  ("outcome", .text outcome),
  ("reason", .text reason),
  ("disbursements_created", .int created),
  ("unknown_actions", .int unknown)]

def optionalField (name : String) : Value → List (String × Value)
  | .null => []
  | v => [(name, v)]

def Outcome.trace (o : Outcome) (d : Workflow.Definition) (e : Event) : List (String × Value) :=
  traceFields d e o.decision.word o.reason o.createdIds.length o.unknownActions.length
    ++ optionalField "from_state" o.decision.fromState
    ++ optionalField "to_state" o.decision.toState

/-- The fields of the record that tells of a failure; the wording of the storage is withheld. -/
def failureTrace (d : Workflow.Definition) (e : Event) (f : Failure) : List (String × Value) :=
  traceFields d e "failed" (f.message?.getD "") 0 0 ++ [("error_code", .text f.kind.code)]

end LoanLedger.Engine
