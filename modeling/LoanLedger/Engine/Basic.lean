import LoanLedger.Engine.Outcome

/-!
# The engine

* `Engine` : a definition, a dispatcher, and how long locks are waited for;
* `Engine.openLoan`, `Engine.markPaid` : a loan is opened, a disbursement is paid: each under the lock
  of the loan and in a transaction of its own;
* `Engine.currentState`, `Engine.auditLog` : what is committed of a loan;
* `withLock`, `inSession` : work under the lock of a loan, and in a session that is dropped after it.
-/

namespace LoanLedger

structure Engine where
  definition : Workflow.Definition
  dispatcher : Engine.Dispatcher
  /-- How many seconds a lock is waited for; null waits forever. -/
  lockTimeout : Value

namespace Engine

open Ledger (Work Loan Disbursement emit guarded)

/-! ## Locks and sessions -/

/-- Fails as an attempt to hold a lock did. -/
def lockFailed {α : Type} (loanId : String) (timeout : Value) : Locks.Error → Work α
  | .timedOut => do
    emit .warning "services.loan_locks" "loan_lock_timeout"
      [("loan_id", .text loanId), ("timeout_seconds", timeout)]
    throw (.failure (.lockTimeout loanId timeout))
  | .stuck => throw .stuck
  | .patience e => throw (.patience e)

def withLock {α : Type} (loanId : String) (timeout : Value) (x : Work α) : Work α := do
  let r ← modifyGet fun d =>
    ((d.locks.hold loanId timeout).2, { d with locks := (d.locks.hold loanId timeout).1 })
  match r with
  | .error e => lockFailed loanId timeout e
  | .ok () =>
    Work.finally_ x (modify fun d => { d with locks := d.locks.leave loanId })

def inSession {α : Type} (x : Work α) : Work α := do
  Ledger.begin
  Work.finally_ x Ledger.rollback

/-- Commits; from here on nothing is taken back. -/
def commit : Work Unit :=
  guarded "commit" Ledger.commit

/-- Work in a transaction of its own under the lock of a loan. -/
def transact {α : Type} (g : Engine) (loanId : String) (x : Work α) : Work α :=
  withLock loanId g.lockTimeout <| inSession do
    let a ← x
    commit
    pure a

/-! ## Operations -/

def openLoan (g : Engine) (loanId founderId actor : String) : Work Loan :=
  g.transact loanId (Ledger.Loans.open_ loanId founderId g.definition actor)

def markPaid (g : Engine) (loanId disbursementId actor : String) : Work Disbursement :=
  g.transact loanId (Ledger.Disbursements.markPaid loanId disbursementId actor)

def currentState (loanId : String) : Work String :=
  inSession do pure (← Ledger.Loans.require loanId false).state

def auditLog (loanId : String) : Work (List Ledger.AuditLog.View) :=
  inSession (guarded "audit_log" (Ledger.AuditLog.views loanId none))

end Engine

end LoanLedger
