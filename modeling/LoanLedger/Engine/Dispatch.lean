import LoanLedger.Event.Key
import LoanLedger.Ledger.Disbursements
import LoanLedger.Ledger.Loans

/-!
# Actions of a transition

* `Dispatcher` : which kinds of actions request which tranche; `Dispatcher.standard` is the usual one;
* `Task` : an action to be done for an event;
* `Dispatcher.dispatch h task` : does an action and records it: a request that is new, or an action
  that nobody handles. An action that is not known does not stop the transition.
-/

namespace LoanLedger.Engine

open Ledger (Work Tranche AuditRecord AuditLog.append emit call)
open Workflow (Action ActionKind)

structure Dispatcher where
  handlers : List (ActionKind × Tranche)
  deriving Repr, DecidableEq

namespace Dispatcher

/-- The first disbursement pays the filing fee and the second one the remaining funds. -/
def standard : Dispatcher :=
  ⟨[(.firstDisbursement, .filingFee), (.secondDisbursement, .remainingFunds)]⟩

def ofHandlers (handlers : List (ActionKind × Tranche)) : Dispatcher :=
  ⟨handlers.filter (·.1 ≠ .unrecognized)⟩

def tranche? (h : Dispatcher) (k : ActionKind) : Option Tranche :=
  h.handlers.lookup k

/-- The words of the kinds that are handled, in order. -/
def handled (h : Dispatcher) : List String :=
  ((h.handlers.map (·.1.word)).eraseDups).mergeSort (· ≤ ·)

end Dispatcher

/-- An action to be done for an event on the way from a state to another one. -/
structure Task where
  event : Event
  fromState : String
  toState : String
  action : Action

inductive ActionResult where
  | requested (action : Action) (id : String) (kind : Tranche) (created : Bool)
  | unknown (action : Action)
  deriving Repr, DecidableEq

namespace ActionResult

def action : ActionResult → Action
  | requested a .. => a
  | unknown a => a

def isRecognized : ActionResult → Bool
  | requested .. => true
  | unknown _ => false

def isCreated : ActionResult → Bool
  | requested _ _ _ created => created
  | unknown _ => false

def disbursementId? : ActionResult → Option String
  | requested _ id _ _ => some id
  | unknown _ => none

def disbursementKind? : ActionResult → Option Tranche
  | requested _ _ kind _ => some kind
  | unknown _ => none

end ActionResult

/-! ## Requests -/

/-- The entry for a new request. -/
def requestRecord (task : Task) (d : Ledger.Disbursement) : AuditRecord where
  timestamp := task.event.occurredAt
  actor := task.event.actor
  event := .disbursementCreated
  details := "Created " ++ d.kind.word ++ " disbursement " ++ d.id ++ " (action " ++
    task.action.trigger ++ ")"
  attributes := [
    (.text "kind", .text d.kind.word),
    (.text "disbursement_id", .text d.id),
    (.text "trigger", .text task.action.trigger),
    (.text "event_type", .text task.event.type)]
  key := none

/-- An error of the system while a tranche is requested is a failure of the service that pays. -/
def serviceFailure (e : Ledger.Error) : Ledger.Error :=
  match e with
  | .external x =>
    if x.isSystem then .failure (.disbursementService "create_disbursement" x.message)
    else .external x
  | e => e

/-- The service that pays gave no answer. -/
def noAnswer : Ledger.Error :=
  .external ⟨"AttributeError", "'NoneType' object has no attribute 'created'", false⟩

/-- Requests a tranche and records the request if it is a new one. -/
def request (task : Task) (kind : Tranche) : Work ActionResult := do
  let loanId := task.event.loanId
  match ← Work.recover (Ledger.Disbursements.request loanId kind)
      (fun e => throw (serviceFailure e)) with
  | none => throw noAnswer
  | some answer => do
    let d := answer.record
    Ledger.know (Ledger.Disbursements.forget d.id)
    if answer.created then
      let _ ← Ledger.AuditLog.append loanId (requestRecord task { d with kind })
    pure (.requested task.action d.id kind answer.created)

/-! ## Unknown actions -/

/-- The entry for an action that nobody handles. -/
def unknownRecord (task : Task) : AuditRecord where
  timestamp := task.event.occurredAt
  actor := task.event.actor
  event := .unknownAction
  details := "Unknown action " ++ Text.quoted task.action.trigger ++ " skipped"
  attributes := [
    (.text "trigger", .text task.action.trigger),
    (.text "event_type", .text task.event.type),
    (.text "from_state", .text task.fromState)]
  key := none

/-- Records an action that nobody handles. -/
def recordUnknown (task : Task) : Work ActionResult := do
  emit .warning "services.action_dispatch" "unknown_action"
    [("trigger", .text task.action.trigger), ("from_state", .text task.fromState)]
  let _ ← Ledger.AuditLog.append task.event.loanId (unknownRecord task)
  pure (.unknown task.action)

def Dispatcher.dispatch (h : Dispatcher) (task : Task) : Work ActionResult := do
  let result ← match h.tranche? task.action.kind with
    | some kind => request task kind
    | none => recordUnknown task
  emit .debug "services.action_dispatch" "action_dispatched" [
    ("trigger", .text task.action.trigger),
    ("action_kind", .text task.action.kind.word),
    ("recognized", .bool result.isRecognized),
    ("disbursement_created", .bool result.isCreated)]
  pure result

end LoanLedger.Engine
