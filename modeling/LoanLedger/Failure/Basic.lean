import LoanLedger.Failure.Kind
import LoanLedger.Value.Text

/-!
# Failures

* `Failure` : a failure of the ledger or the workflow with its particulars;
* `Failure.kind f`, `Failure.message? f`, `Failure.attributes f` : its kind, its wording and its
  particulars by name;
* `messageOf k args` : the wording of a failure of kind `k` with particulars `args`.

The wording is withheld where it would be the storage's own.
-/

namespace LoanLedger

/-- A failure with its particulars. -/
inductive Failure where
  | loanNotFound (loanId : String)
  | loanAlreadyExists (loanId : String)
  | invalidState (loanId state definitionName : String)
  | eventCancelled (loanId eventType stage : String)
  | definitionInvalid (source : String) (errors : List String)
  | disbursementNotFound (loanId disbursementId : String)
  | disbursementAlreadyExists (loanId kind disbursementId : String)
  /-- The storage failed during an operation; the reason is the storage's own. -/
  | ledgerUnavailable (operation : String)
  | disbursementService (operation reason : String)
  | optimisticLock (loanId : String) (expected actual : Option String)
  | lockTimeout (loanId : String) (timeout : Value)
  | duplicateTransition (loanId key : String)
  /-- An entry was to be changed or removed; its identity is the storage's own. -/
  | immutabilityViolation (entityType reason : String)
  | auditChainBroken (loanId : String) (seq : Int) (expected actual : Option String)
  | missingField (name : String)
  | invalidField (name reason : String)
  /-- A failure of some kind that was handed in from outside, with particulars of any sort. -/
  | given (kind : Failure.Kind) (particulars : List Value)

namespace Failure

def kind : Failure → Kind
  | loanNotFound _ => .loanNotFound
  | loanAlreadyExists _ => .loanAlreadyExists
  | invalidState .. => .invalidState
  | eventCancelled .. => .eventCancelled
  | definitionInvalid .. => .definitionInvalid
  | disbursementNotFound .. => .disbursementNotFound
  | disbursementAlreadyExists .. => .disbursementAlreadyExists
  | ledgerUnavailable _ => .ledgerUnavailable
  | disbursementService .. => .disbursementService
  | optimisticLock .. => .optimisticLock
  | lockTimeout .. => .lockTimeout
  | duplicateTransition .. => .duplicateTransition
  | immutabilityViolation .. => .immutabilityViolation
  | auditChainBroken .. => .auditChainBroken
  | missingField _ => .missingField
  | invalidField .. => .invalidField
  | given kind _ => kind

/-- The particulars that have a name of their own for each kind. -/
def particulars : Failure → List Value
  | loanNotFound a | loanAlreadyExists a | missingField a => [.text a]
  | invalidState a b c | eventCancelled a b c | disbursementAlreadyExists a b c =>
    [.text a, .text b, .text c]
  | definitionInvalid a es => [.text a, .list (es.map .text)]
  | disbursementNotFound a b | disbursementService a b | duplicateTransition a b
  | invalidField a b => [.text a, .text b]
  | ledgerUnavailable a => [.text a]
  | optimisticLock a e f => [.text a, Value.ofText? e, Value.ofText? f]
  | lockTimeout a t => [.text a, t]
  | immutabilityViolation a r => [.text a, .text r]
  | auditChainBroken a n e f => [.text a, .int n, Value.ofText? e, Value.ofText? f]
  | given _ vs => vs

/-- The first five errors, and how many more there are. -/
def summary (errors : List String) : String :=
  "; ".intercalate (errors.take 5) ++
    if 5 < errors.length then " (+" ++ (errors.length - 5).repr ++ " more)" else ""

/-- The wording of a message that is not made from a pattern: nothing, the one thing told, or all of
them as a sequence. -/
def plainMessage : List Value → String
  | [] => ""
  | [v] => v.label
  | vs => (Value.tuple vs).label

/-- The wording of a failure of a kind with its particulars. -/
def messageOf (kind : Kind) (vs : List Value) : String :=
  let texts := vs.map Value.label
  let at_ (i : Nat) := texts.getD i ""
  match kind with
  | .loanNotFound => "Loan not found: " ++ at_ 0
  | .loanAlreadyExists => "Loan already exists: " ++ at_ 0
  | .invalidState =>
    "Loan " ++ at_ 0 ++ " is in state '" ++ at_ 1 ++
      "' which does not exist in process definition '" ++ at_ 2 ++ "'"
  | .eventCancelled =>
    "Handling of " ++ at_ 1 ++ " for loan " ++ at_ 0 ++ " cancelled at " ++ at_ 2
  | .definitionInvalid =>
    let errors := match vs with
      | [_, .list es] => es.map Value.label
      | _ => []
    "Invalid process definition " ++ at_ 0 ++ ": " ++ summary errors
  | .disbursementNotFound => "Disbursement " ++ at_ 1 ++ " not found for loan " ++ at_ 0
  | .disbursementAlreadyExists =>
    "Disbursement " ++ at_ 1 ++ " already exists for loan " ++ at_ 0 ++ ": " ++ at_ 2
  | .dependency => at_ 0 ++ " failed during " ++ at_ 1 ++ ": " ++ at_ 2
  | .ledgerUnavailable => "ledger failed during " ++ at_ 0 ++ ": " ++ at_ 1
  | .disbursementService => "disbursement_orchestrator failed during " ++ at_ 0 ++ ": " ++ at_ 1
  | .optimisticLock =>
    let detail := match vs.getD 1 .null with
      | .null => ""
      | _ => " (expected '" ++ at_ 1 ++ "', found '" ++ at_ 2 ++ "')"
    "Optimistic lock conflict on loan " ++ at_ 0 ++
      ": loan was modified by another transaction" ++ detail
  | .lockTimeout => "Timed out after " ++ at_ 1 ++ "s waiting for lock on loan " ++ at_ 0
  | .duplicateTransition =>
    "Transition already recorded for loan " ++ at_ 0 ++ ": " ++ at_ 1
  | .immutabilityViolation =>
    "Immutability violation on " ++ at_ 0 ++ " " ++ at_ 1 ++ ": " ++ at_ 2
  | .auditChainBroken =>
    "Audit chain broken for loan " ++ at_ 0 ++ " at seq " ++ at_ 1 ++ ": expected " ++ at_ 2 ++
      ", got " ++ at_ 3
  | .missingField => "Missing required event field: " ++ at_ 0
  | .invalidField => "Invalid event field " ++ at_ 0 ++ ": " ++ at_ 1
  | _ => plainMessage vs

def parameterNames (kind : Kind) : List String :=
  match kind.parameters? with
  | some (required, free) => required ++ free
  | none => []

/-- The particulars of a kind by name; a dependency is named even where the kind alone tells it. -/
def attributesOf (kind : Kind) (vs : List Value) : List (String × Value) :=
  let named := (parameterNames kind).zip vs
  match kind with
  | .ledgerUnavailable => ("dependency", .text "ledger") :: named
  | .disbursementService => ("dependency", .text "disbursement_orchestrator") :: named
  | _ => named

def message? : Failure → Option String
  | ledgerUnavailable _ => none
  | immutabilityViolation .. => none
  | f => some (messageOf f.kind f.particulars)

def attributes : Failure → List (String × Value)
  | immutabilityViolation entityType reason =>
    [("entity_type", .text entityType), ("reason", .text reason)]
  | f => attributesOf f.kind f.particulars

end Failure

end LoanLedger
