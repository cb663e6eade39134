import LoanLedger.Report

/-!
# Events

* `Event` : something that happened to a loan, at a time with a known offset;
* `Event.identity e` : what tells this occurrence from others: its id, or its time when it has none;
* `Event.ofFields? fs` : the event with these fields as they are, the time being checked alone.
-/

namespace LoanLedger

open Calendar (Timestamp)

structure Event where
  type : String
  loanId : String
  founderId : String
  occurredAt : Timestamp
  payload : Entries
  actor : String
  eventId : Option String
  isAware : occurredAt.isAware = true

def systemActor : String := "system"

namespace Event

/-- What tells this occurrence from others. An empty id counts as none. -/
def identity (e : Event) : String :=
  match e.eventId with
  | some id => if id = "" then e.occurredAt.iso else id
  | none => e.occurredAt.iso

/-- The fields of an event, the time not yet checked. -/
structure Fields where
  type : String
  loanId : String
  founderId : String
  occurredAt : Timestamp
  payload : Entries
  actor : String
  eventId : Option String

def ofFields? (f : Fields) : Except Failure Event :=
  if h : f.occurredAt.isAware = true then
    .ok ⟨f.type, f.loanId, f.founderId, f.occurredAt, f.payload, f.actor, f.eventId, h⟩
  else .error (.invalidField "occurred_at" "must be timezone-aware")

end Event

end LoanLedger
