import LoanLedger.Engine.Basic

/-!
# Handling events

* `Engine.handle g e` : what the event `e` does to its loan, in one transaction under the lock of the
  loan: all of it is committed, or nothing is.

An event whose key is recorded does nothing. Otherwise it takes the first transition of the loan's
state for its type, does the actions in order, moves the loan and records the transition under the
key; without such a transition it is recorded as ignored.
-/

namespace LoanLedger.Engine

open Ledger (Work Loan AuditRecord Entry emit call guarded)
open Workflow (State Transition)

/-! ## Records -/

def ignoredRecord (e : Event) (state : String) : AuditRecord where
  timestamp := e.occurredAt
  actor := e.actor
  event := .ignoredEvent
  details := "Event " ++ e.type ++ " ignored: no transition from state " ++ state
  attributes := [(.text "event_type", .text e.type), (.text "state", .text state)]
  key := none

/-- The entry for a transition. -/
def transitionRecord (e : Event) (fromState toState : String) : AuditRecord where
  timestamp := e.occurredAt
  actor := e.actor
  event := .stateTransition
  details := fromState ++ " -> " ++ toState ++ " on " ++ e.type
  attributes := [
    (.text "from_state", .text fromState),
    (.text "to_state", .text toState),
    (.text "event_type", .text e.type)]
  key := some e.key

/-! ## Steps -/

def checkCancelled (e : Event) (stage : String) : Work Unit :=
  call .cancelCheck () do
    if !(← Ledger.checkPasses) then throw (.failure (.eventCancelled e.loanId e.type stage))

/-- Tells that an event was applied before, as an entry records if there is one. -/
def duplicateOf (e : Event) (entry : Option Entry) : Work Decision := do
  let attributes ← Work.ofExcept ((entry.elim (.ok []) (·.details?)).mapError fun x =>
    Ledger.Error.content (.attributes x))
  Ledger.rollback
  emit .info "services.workflow_engine" "workflow_event_duplicate"
    [("idempotency_key", .text e.key)]
  pure (.duplicate ((attributes.field? "from_state").getD (.text "")) (attributes.field "to_state"))

/-- The state of a loan in the definition, where it must be declared. -/
def stateOf (g : Engine) (l : Loan) : Work State :=
  match g.definition.find? l.state with
  | some s => pure s
  | none => do
    emit .error "services.workflow_engine" "loan_state_not_in_definition"
      [("state", .text l.state), ("workflow", .text g.definition.label)]
    throw (.failure (.invalidState l.loanId l.state g.definition.name))

/-- Records an event that no transition waits for. -/
def ignore (e : Event) (state : String) : Work Decision := do
  let _ ← Ledger.AuditLog.append e.loanId (ignoredRecord e state)
  checkCancelled e "commit"
  pure (.ignored state)

def doAction (g : Engine) (e : Event) (fromState : String) (t : Transition) (a : Workflow.Action) :
    Work ActionResult := do
  checkCancelled e ("action:" ++ a.trigger)
  g.dispatcher.dispatch ⟨e, fromState, t.to, a⟩

/-- Takes a transition: its actions in order, the move, and the record of it. -/
def take (g : Engine) (e : Event) (fromState : String) (t : Transition) : Work Decision := do
  let results ← t.actions.mapM (g.doAction e fromState t)
  let _ ← Ledger.Loans.updateState e.loanId t.to (some fromState)
  let _ ← Ledger.AuditLog.append e.loanId (transitionRecord e fromState t.to)
  checkCancelled e "commit"
  pure (.applied fromState t.to results)

/-- What an event does within its session: it gives the entry that is recorded under its key, or
what it did, not yet committed. -/
def weigh (g : Engine) (e : Event) : Work (Entry ⊕ Decision) := do
  let l ← Ledger.Loans.require e.loanId true
  let s ← g.stateOf l
  match ← Ledger.AuditLog.findTransition e.key with
  | some entry => pure (.inl entry)
  | none => match s.find? e.type with
    | none => .inr <$> ignore e l.state
    | some t => .inr <$> g.take e l.state t

def decide_ (g : Engine) (e : Event) : Work Decision := do
  match ← g.weigh e with
  | .inl entry => duplicateOf e (some entry)
  | .inr d => do
    commit
    pure d

/-- The entry under the key of an event whose transition was recorded meanwhile. -/
def resolveDuplicate (e : Event) : Work Decision := do
  Ledger.rollback
  let entry ← guarded "find_transition_entry" (Ledger.AuditLog.findTransition e.key)
  duplicateOf e entry

/-- What an event does to its loan, in a session of its own. -/
def apply (g : Engine) (e : Event) : Work Decision :=
  inSession <| (g.decide_ e).recover fun x =>
    if x.isDuplicate then resolveDuplicate e else throw x

/-! ## The whole -/

/-- Writes the trace of a failure. -/
def noteFailure (g : Engine) (e : Event) (x : Ledger.Error) : Work Unit :=
  match x with
  | .failure f =>
    emit .warning "services.workflow_engine" "workflow_transition" (failureTrace g.definition e f)
  | _ => pure ()

def noteOutcome (g : Engine) (e : Event) (o : Outcome) : Work Unit :=
  emit .info "services.workflow_engine" "workflow_transition" (o.trace g.definition e)

/-- The fields of the log that are bound while an event is handled. -/
def eventContext (e : Event) : List (String × Value) := [
  ("correlation_id", Value.ofText? e.eventId),
  ("loan_id", .text e.loanId),
  ("event_type", .text e.type),
  ("actor", .text e.actor)]

def handle (g : Engine) (e : Event) : Work Outcome :=
  Ledger.withContext (eventContext e) do
    let d ← Work.recover
      (withLock e.loanId g.lockTimeout do
        checkCancelled e "lock_acquired"
        g.apply e)
      (fun x => do
        g.noteFailure e x
        throw x)
    let o := Outcome.of e d
    g.noteOutcome e o
    pure o

end LoanLedger.Engine
