import LoanLedger.Value.Key

/-!
# The bundled process

* `bundledDocument` : the document of the founder loan, from the check of identity to repayment.

Disbursement 1 pays the filing fee, disbursement 2 the remaining funds.
-/

namespace LoanLedger.Workflow

/-- A transition with its trigger, which a bare `on` in a document makes a truth value. -/
def bundledTransition (on target : String) (triggers : List String) : Value :=
  .map ([(.bool true, .text on), (.text "to", .text target)] ++
    if triggers.isEmpty then []
    else [(.text "actions", .list (triggers.map fun t => Value.record [("trigger", .text t)]))])

def bundledState (id description : String) (transitions : List Value) : Value :=
  Value.record ([("id", .text id), ("description", .text description)] ++
    if transitions.isEmpty then [] else [("transitions", .list transitions)])

/-- The document of the founder loan. -/
def bundledDocument : Value :=
  Value.record [
    ("name", .text "founder_loan"),
    ("version", .int 1),
    ("description",
      .text "Founder loan from KYC through milestone-gated funding to repayment."),
    ("initial_state", .text "PENDING_KYC"),
    ("states", .list [
      bundledState "PENDING_KYC" "Awaiting identity verification." [
        bundledTransition "KYC_APPROVED" "FUNDED" ["DISBURSEMENT_1"],
        bundledTransition "KYC_REJECTED" "REJECTED" []],
      bundledState "FUNDED" "Filing fee requested; loan documents pending issuance." [
        bundledTransition "LOAN_ISSUED" "ISSUED" []],
      bundledState "ISSUED" "Loan issued; waiting for the founder's milestone." [
        bundledTransition "MILESTONE_SUBMITTED" "MILESTONE_REVIEW" []],
      bundledState "MILESTONE_REVIEW" "Milestone evidence under review." [
        bundledTransition "MILESTONE_APPROVED" "DISBURSED" ["DISBURSEMENT_2"],
        bundledTransition "MILESTONE_REJECTED" "ISSUED" [],
        bundledTransition "GOVERNANCE_FREEZE" "FROZEN" []],
      bundledState "FROZEN" "Held by a governance resolution." [
        bundledTransition "GOVERNANCE_UNFREEZE" "MILESTONE_REVIEW" []],
      bundledState "DISBURSED" "All funds requested." [
        bundledTransition "LOAN_REPAID" "CLOSED" []],
      bundledState "REJECTED" "KYC failed." [],
      bundledState "CLOSED" "Repaid in full." []])]

end LoanLedger.Workflow
