import LoanLedger.Engine.Handle
import LoanLedger.Ledger.Block

/-!
# Runs

* `Call` : a call of the engine; `Engine.serve g c` does it, `Engine.work g c` is what it does in its
  transaction short of committing;
* `Disturbance` : what disturbs work: faults, another writer, a cancellation;
* `Turn` : a job that somebody has done at some time, disturbed in some way: a call of an engine, or a
  block in a transaction of its own;
* `Desk.after ts d` : the desk after turns, one after the other.
-/

namespace LoanLedger

open Ledger (Work Loan Disbursement Desk Fault Block)

namespace Engine

/-! ## Calls -/

inductive Call where
  | open_ (loanId founderId actor : String)
  | handle (e : Event)
  | pay (loanId disbursementId actor : String)

inductive Answer where
  | opened (l : Loan)
  | handled (o : Outcome)
  | paid (d : Disbursement)

def serve (g : Engine) : Call → Work Answer
  | .open_ loanId founderId actor => .opened <$> g.openLoan loanId founderId actor
  | .handle e => .handled <$> g.handle e
  | .pay loanId id actor => .paid <$> g.markPaid loanId id actor

/-- What a call does in its transaction, not yet committed; nothing is to be committed for an event
that was applied before. -/
def work (g : Engine) : Call → Work (Option Answer)
  | .open_ loanId founderId actor => do
    pure (some (.opened (← Ledger.Loans.open_ loanId founderId g.definition actor)))
  | .handle e => do
    match ← g.weigh e with
    | .inl _ => pure none
    | .inr d => pure (some (.handled (Outcome.of e d)))
  | .pay loanId id actor => do
    pure (some (.paid (← Ledger.Disbursements.markPaid loanId id actor)))

/-- Whether the answer is that the event was applied before. -/
def Answer.isDuplicate : Answer → Bool
  | .handled o => match o.decision with
    | .duplicate .. => true
    | _ => false
  | _ => false

end Engine

/-! ## Turns -/

/-- What disturbs work: faults, another writer of the loan, and a cancellation after so many checks. -/
structure Disturbance where
  faults : List Fault
  hasRival : Bool
  checksLeft : Option Nat

def Disturbance.none : Disturbance := ⟨[], false, .none⟩

inductive Job where
  | call (g : Engine) (c : Engine.Call)
  | block (b : Block Unit)

/-- A job that is done at some time and disturbed in some way. -/
structure Turn where
  clock : Clock
  disturbance : Disturbance
  job : Job

def Job.run : Job → Work Unit
  | call g c => discard (g.serve c)
  | block b => Ledger.scope b.run

namespace Ledger

def Desk.prepared (d : Desk) (clock : Clock) (x : Disturbance) : Desk :=
  { d with clock, faults := x.faults, hasRival := x.hasRival, checksLeft := x.checksLeft }

def Desk.turn (d : Desk) (t : Turn) : Desk :=
  t.job.run.desk (d.prepared t.clock t.disturbance)

def Desk.after (d : Desk) (ts : List Turn) : Desk :=
  ts.foldl Desk.turn d

/-- Nothing is committed and nothing is locked. -/
structure Desk.IsNew (d : Desk) : Prop where
  store : d.store = .empty
  locks : d.locks = .empty

end Ledger

end LoanLedger
