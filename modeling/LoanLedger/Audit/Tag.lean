/-!
# Audit tags

* `Tag` : the kinds of audit entries;
* `Tag.word t` : the word that is stored; `Tag.ofWord?` reads it;
* `Tag.label t` : the name that the tag shows as.
-/

namespace LoanLedger.Audit

inductive Tag where
  | ignoredEvent
  | stateTransition
  | disbursementCreated
  | unknownAction
  | loanOpened
  | disbursementPaid
  deriving Repr, DecidableEq

namespace Tag

def all : List Tag :=
  [ignoredEvent, stateTransition, disbursementCreated, unknownAction, loanOpened, disbursementPaid]

def word : Tag → String
  | ignoredEvent => "ignored_event"
  | stateTransition => "state_transition"
  | disbursementCreated => "disbursement_created"
  | unknownAction => "unknown_action"
  | loanOpened => "loan_opened"
  | disbursementPaid => "disbursement_paid"

def label (t : Tag) : String :=
  "AuditTag." ++ t.word.toUpper

def ofWord? (s : String) : Option Tag :=
  all.find? (·.word = s)

theorem ofWord?_word (t : Tag) : ofWord? t.word = some t := by
  cases t <;> decide

end Tag

end LoanLedger.Audit
