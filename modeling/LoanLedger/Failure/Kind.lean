/-!
# Kinds of failure

* `Failure.Kind` : the families of failures and their members;
* `Kind.name`, `Kind.code` : what a kind is called in answers and logs;
* `Kind.family? k` : the family that `k` belongs to; `Kind.line k` : `k`, its family, and so on up to
  the family of all;
* `Kind.parameters? k` : what a failure of the kind tells, in order.
-/

namespace LoanLedger.Failure

/-- What went wrong, without the particulars. -/
inductive Kind where
  | kernel
  | loan
  | loanNotFound
  | loanAlreadyExists
  | workflow
  | invalidState
  | eventCancelled
  | definition
  | definitionInvalid
  | disbursement
  | disbursementNotFound
  | disbursementAlreadyExists
  | dependency
  | ledgerUnavailable
  | disbursementService
  | concurrency
  | optimisticLock
  | lockTimeout
  | duplicateTransition
  | immutability
  | immutabilityViolation
  | audit
  | auditChainBroken
  | badRequest
  | missingField
  | invalidField
  deriving Repr, DecidableEq

namespace Kind

def all : List Kind := [
  kernel, loan, loanNotFound, loanAlreadyExists, workflow, invalidState, eventCancelled, definition,
  definitionInvalid, disbursement, disbursementNotFound, disbursementAlreadyExists, dependency,
  ledgerUnavailable, disbursementService, concurrency, optimisticLock, lockTimeout,
  duplicateTransition, immutability, immutabilityViolation, audit, auditChainBroken, badRequest,
  missingField, invalidField]

def name : Kind → String
  | kernel => "LendingKernelError"
  | loan => "LoanError"
  | loanNotFound => "LoanNotFoundError"
  | loanAlreadyExists => "LoanAlreadyExistsError"
  | workflow => "WorkflowError"
  | invalidState => "InvalidStateError"
  | eventCancelled => "EventCancelledError"
  | definition => "DefinitionError"
  | definitionInvalid => "ProcessDefinitionInvalidError"
  | disbursement => "DisbursementError"
  | disbursementNotFound => "DisbursementNotFoundError"
  | disbursementAlreadyExists => "DisbursementAlreadyExistsError"
  | dependency => "DependencyFailureError"
  | ledgerUnavailable => "LedgerUnavailableError"
  | disbursementService => "DisbursementServiceError"
  | concurrency => "ConcurrencyError"
  | optimisticLock => "OptimisticLockError"
  | lockTimeout => "LoanLockTimeoutError"
  | duplicateTransition => "DuplicateTransitionError"
  | immutability => "ImmutabilityError"
  | immutabilityViolation => "ImmutabilityViolationError"
  | audit => "AuditError"
  | auditChainBroken => "AuditChainBrokenError"
  | badRequest => "BadRequestError"
  | missingField => "MissingEventFieldError"
  | invalidField => "InvalidEventFieldError"

/-- The code that callers tell a kind by. -/
def code : Kind → String
  | kernel => "LENDING_KERNEL_ERROR"
  | loan => "LOAN_ERROR"
  | loanNotFound => "LOAN_NOT_FOUND"
  | loanAlreadyExists => "LOAN_ALREADY_EXISTS"
  | workflow => "WORKFLOW_ERROR"
  | invalidState => "INVALID_STATE"
  | eventCancelled => "EVENT_CANCELLED"
  | definition => "DEFINITION_ERROR"
  | definitionInvalid => "PROCESS_DEFINITION_INVALID"
  | disbursement => "DISBURSEMENT_ERROR"
  | disbursementNotFound => "DISBURSEMENT_NOT_FOUND"
  | disbursementAlreadyExists => "DISBURSEMENT_ALREADY_EXISTS"
  | dependency => "DEPENDENCY_FAILURE"
  | ledgerUnavailable => "LEDGER_UNAVAILABLE"
  | disbursementService => "DISBURSEMENT_SERVICE_FAILURE"
  | concurrency => "CONCURRENCY_ERROR"
  | optimisticLock => "OPTIMISTIC_LOCK_CONFLICT"
  | lockTimeout => "LOAN_LOCK_TIMEOUT"
  | duplicateTransition => "DUPLICATE_TRANSITION"
  | immutability => "IMMUTABILITY_ERROR"
  | immutabilityViolation => "IMMUTABILITY_VIOLATION"
  | audit => "AUDIT_ERROR"
  | auditChainBroken => "AUDIT_CHAIN_BROKEN"
  | badRequest => "BAD_REQUEST"
  | missingField => "MISSING_EVENT_FIELD"
  | invalidField => "INVALID_EVENT_FIELD"

def ofName? (s : String) : Option Kind :=
  all.find? (·.name = s)

def family? : Kind → Option Kind
  | kernel => none
  | loanNotFound | loanAlreadyExists => some loan
  | invalidState | eventCancelled => some workflow
  | definitionInvalid => some definition
  | disbursementNotFound | disbursementAlreadyExists => some disbursement
  | ledgerUnavailable | disbursementService => some dependency
  | optimisticLock | lockTimeout | duplicateTransition => some concurrency
  | immutabilityViolation => some immutability
  | auditChainBroken => some audit
  | missingField | invalidField => some badRequest
  | _ => some kernel

def line (k : Kind) : List Kind :=
  match k.family? with
  | none => [k]
  | some f => match f.family? with
    | none => [k, f]
    | some g => [k, f, g]

/-- The particulars that must be told of a failure, and those that may be. A family that tells
nothing in particular has none. -/
def parameters? : Kind → Option (List String × List String)
  | loanNotFound | loanAlreadyExists => some (["loan_id"], [])
  | invalidState => some (["loan_id", "state", "definition_name"], [])
  | eventCancelled => some (["loan_id", "event_type", "stage"], [])
  | definitionInvalid => some (["source", "errors"], [])
  | disbursementNotFound => some (["loan_id", "disbursement_id"], [])
  | disbursementAlreadyExists => some (["loan_id", "kind", "disbursement_id"], [])
  | dependency => some (["dependency", "operation", "reason"], [])
  | ledgerUnavailable | disbursementService => some (["operation", "reason"], [])
  | optimisticLock => some (["loan_id"], ["expected_state", "actual_state"])
  | lockTimeout => some (["loan_id", "timeout_seconds"], [])
  | duplicateTransition => some (["loan_id", "idempotency_key"], [])
  | immutabilityViolation => some (["entity_type", "entity_id", "reason"], [])
  | auditChainBroken => some (["loan_id", "seq", "expected_hash", "actual_hash"], [])
  | missingField => some (["field_name"], [])
  | invalidField => some (["field_name", "reason"], [])
  | _ => none

end Kind

end LoanLedger.Failure
