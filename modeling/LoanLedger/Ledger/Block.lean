import LoanLedger.Ledger.Disbursements
import LoanLedger.Ledger.Tampering

/-!
# Blocks

What somebody does in a transaction of their own: operations on the ledger, each chosen by how the
ones before it went.

* `Op α` : the operations that a transaction is made of, with the answer `α`; `Op.run` does one;
* `Block α` : operations one after the other, up to an answer or a failure; a failure of an operation
  may be dealt with;
* `Block.run b` : the work of a block; `Ledger.scope b.run` commits it, or takes it back.
-/

namespace LoanLedger.Ledger

/-- The operations that a transaction is made of. -/
inductive Op : Type → Type where
  | getLoan (loanId : String) (fresh : Bool) : Op (Option Loan)
  | openLoan (loanId founderId : String) (d : Workflow.Definition) (actor : String) : Op Loan
  | updateState (loanId state : String) (expected : Option String) : Op (Option Loan)
  | append (loanId : String) (r : AuditRecord) : Op (Option Entry)
  | findTransition (key : String) : Op (Option Entry)
  | entries (loanId : String) : Op (List Entry)
  | views (loanId : String) (tag? : Option Audit.Tag) : Op (List AuditLog.View)
  | verify (loanId : String) : Op Unit
  | findDisbursement (loanId : String) (kind : Tranche) : Op (Option Disbursement)
  | getDisbursement (loanId id : String) : Op Disbursement
  | disbursements (loanId : String) : Op (List Disbursement)
  | submit (loanId : String) (kind : Tranche) : Op Disbursement
  | request (loanId : String) (kind : Tranche) : Op (Option Disbursements.Answer)
  | markPaid (loanId id actor : String) : Op Disbursement
  | nextNumber (name : String) : Op Int
  | currentNumber (name : String) : Op (Option Int)
  | editEntry (loanId : String) (seq : Int) (f : Tampering.Field) (v : Value) : Op Unit
  | eraseEntry (loanId : String) (seq : Int) : Op Unit

/-- Does an operation. -/
def Op.run {α : Type} : Op α → Work α
  | getLoan loanId fresh => Loans.get loanId fresh
  | openLoan loanId founderId d actor => Loans.open_ loanId founderId d actor
  | updateState loanId state expected => Loans.updateState loanId state expected
  | append loanId r => AuditLog.append loanId r
  | findTransition key => AuditLog.findTransition key
  | entries loanId => AuditLog.entries loanId
  | views loanId tag? => AuditLog.views loanId tag?
  | verify loanId => AuditLog.verify loanId
  | findDisbursement loanId kind => Disbursements.find loanId kind
  | getDisbursement loanId id => Disbursements.get loanId id
  | disbursements loanId => Disbursements.list loanId
  | submit loanId kind => Disbursements.submit loanId kind
  | request loanId kind => Disbursements.request loanId kind
  | markPaid loanId id actor => Disbursements.markPaid loanId id actor
  | nextNumber name => Sequence.next name
  | currentNumber name => Sequence.current name
  | editEntry loanId seq f v => Tampering.editEntry loanId seq f v
  | eraseEntry loanId seq => Tampering.eraseEntry loanId seq

inductive Block (α : Type) : Type 1 where
  | done (a : α)
  | fail (e : Error)
  /-- An operation, and what follows it as it went. -/
  | step {β : Type} (o : Op β) (next : Except Error β → Block α)

def Block.run {α : Type} : Block α → Work α
  | done a => pure a
  | fail e => throw e
  | step o next => Work.attempt o.run >>= fun r => (next r).run

end LoanLedger.Ledger
