import LoanLedger.Engine.Run
import LoanLedger.Proofs.Property.Basic

/-!
# Properties of all work on the ledger

The instances of `Holds` for the operations of the ledger, the blocks made of them, and the calls of the
engine: whatever holds of the steps holds of them.
-/

set_option synthInstance.maxSize 1000

namespace LoanLedger.Ledger

variable {P : Property} {α : Type}

/-! ## Records of the log -/

section Records

variable [Closed P]

instance (name : String) (value : Int) : Holds P (Sequence.noteAllocated name value) := by
  unfold Sequence.noteAllocated
  infer_instance

instance (l : Loan) : Holds P (Loans.conflicted l : Work α) := by
  unfold Loans.conflicted
  infer_instance

theorem Loans.write_holds {l : Loan} {state : String} (hw : Holds P (Loans.write l state)) :
    Holds P ((Loans.write l state).recover fun e => match e with
      | .storage .stale => Loans.conflicted l
      | e => throw e) :=
  .recover hw fun e => by split <;> infer_instance

instance (message loanId : String) (kind id : Value) : Holds P (Disbursements.noteRequest message loanId kind id) := by
  unfold Disbursements.noteRequest
  infer_instance

instance (message : String) (d : Disbursement) : Holds P (Disbursements.notePayment message d) := by
  unfold Disbursements.notePayment
  infer_instance

/-- What is done with an id that was drawn for a request. -/
theorem Disbursements.drawn_holds {loanId id : String} {kind : Tranche} [Holds P (Disbursements.find loanId kind)]
    (h : ∀ time, Holds P (Disbursements.add ⟨id, loanId, kind, .pending, time, none⟩)) :
    Holds P (do
      let d : Disbursement := ⟨id, loanId, kind, .pending, ← now, none⟩
      guarded "create_disbursement" <| savepoint (Disbursements.add d) do
        match ← Disbursements.find loanId kind with
        | some winner => throw (Disbursements.alreadyExists winner)
        | none => throw (.storage .conflict)
      pure d) := by
  refine .bind inferInstance fun time => .bind (.guarded (.savepoint (h time) ?_)) fun _ => inferInstance
  refine .bind inferInstance fun found => ?_
  cases found <;> infer_instance

theorem Disbursements.requested_holds {loanId : String} {kind : Tranche} [Holds P (Disbursements.submit loanId kind)]
    [∀ failure, Holds P (Disbursements.existing loanId failure)] : Holds P (Disbursements.request loanId kind) := by
  refine .call (.bind inferInstance fun r => ?_)
  rcases r with e | d
  · cases e <;> infer_instance
  · infer_instance

end Records

/-! ## The ledger -/

section Ledger

variable [Stable P]

namespace Sequence

instance (name : String) : Holds P (locked name) := by
  unfold locked
  infer_instance

instance (name : String) : Holds P (current name) := by
  unfold current
  infer_instance

end Sequence

namespace AuditLog

instance (g : Tables → List Entry) : Holds P (ask g) := by
  unfold ask
  infer_instance

instance (key : String) : Holds P (findTransition key) := by
  unfold findTransition
  infer_instance

instance (loanId : String) : Holds P (verify loanId) := by
  unfold verify
  refine .bind inferInstance fun es => .bind inferInstance fun b => ?_
  cases b <;> infer_instance

instance (loanId : String) (tag? : Option Audit.Tag) : Holds P (views loanId tag?) := by
  unfold views
  infer_instance

instance (loanId : String) : Holds P (entries loanId) := by
  unfold entries
  infer_instance

instance (loanId key : String) : Holds P (afterConflict loanId key) := by
  unfold afterConflict
  refine .bind inferInstance fun found => ?_
  cases found <;> infer_instance

instance (loanId : String) (r : AuditRecord) [Holds P (next loanId r)] : Holds P (append loanId r) := by
  unfold append
  cases r.key <;> infer_instance

end AuditLog

namespace Loans

instance (loanId : String) (fresh : Bool) : Holds P (get loanId fresh) := by
  unfold get
  refine .call (.guarded (.bind inferInstance fun found => ?_))
  cases found <;> infer_instance

instance (loanId : String) (fresh : Bool) : Holds P (require loanId fresh) := by
  unfold require
  refine .bind inferInstance fun found => ?_
  cases found <;> infer_instance

instance (loanId founderId : String) (d : Workflow.Definition) (actor : String)
    [Holds P (add (initial loanId founderId d))]
    [∀ time, Holds P (AuditLog.append loanId (openingRecord founderId actor d time))] :
    Holds P (open_ loanId founderId d actor) := by
  unfold open_
  dsimp only
  infer_instance

instance (loanId : String) [Holds P (bump loanId)] : Holds P (giveWay loanId) := by
  unfold giveWay
  infer_instance

instance (loanId state : String) (expected : Option String) [Holds P (bump loanId)] [∀ l, Holds P (write l state)] :
    Holds P (updateState loanId state expected) := by
  have (l : Loan) := write_holds (inferInstance : Holds P (write l state))
  unfold updateState
  dsimp only
  infer_instance

end Loans

namespace Disbursements

instance (loanId : String) (kind : Tranche) : Holds P (find loanId kind) := by
  unfold find
  refine .call (.guarded (.bind inferInstance fun found => ?_))
  cases found <;> dsimp only <;> infer_instance

instance (loanId id : String) : Holds P (get loanId id) := by
  unfold get
  refine .bind inferInstance fun found => ?_
  cases found <;> infer_instance

instance (loanId : String) : Holds P (list loanId) := by
  unfold list
  infer_instance

instance (loanId : String) (failure : Failure) : Holds P (existing loanId failure) := by
  unfold existing
  infer_instance

theorem submit_holds {loanId : String} [Holds P freshId]
    (h : ∀ d : Disbursement, d.loanId = loanId → Holds P (add d))
    (kind : Tranche) : Holds P (submit loanId kind) := by
  refine .bind inferInstance fun found => ?_
  cases found with
  | some d => infer_instance
  | none => exact .bind inferInstance fun id => drawn_holds fun _ => h _ rfl

theorem request_holds {loanId : String} [Holds P freshId]
    (h : ∀ d : Disbursement, d.loanId = loanId → Holds P (add d))
    (kind : Tranche) : Holds P (request loanId kind) :=
  have := submit_holds h kind
  requested_holds

instance (loanId : String) (kind : Tranche) [Holds P freshId] [∀ d, Holds P (add d)] : Holds P (submit loanId kind) :=
  submit_holds (fun _ _ => inferInstance) kind

instance (loanId : String) (kind : Tranche) [Holds P freshId] [∀ d, Holds P (add d)] :
    Holds P (request loanId kind) :=
  request_holds (fun _ _ => inferInstance) kind

instance (loanId id actor : String) [∀ d time, Holds P (pay d time)]
    [∀ d time, Holds P (AuditLog.append loanId (paymentRecord d actor time))] :
    Holds P (markPaid loanId id actor) := by
  unfold markPaid
  infer_instance

end Disbursements

namespace Tampering

instance (loanId : String) (seq : Int) : Holds P (entryAt loanId seq) := by
  unfold entryAt
  refine .bind inferInstance fun es => ?_
  cases es.head? <;> infer_instance

instance (loanId operation reason : String) : Holds P (guardEntry loanId operation reason) := by
  unfold guardEntry
  infer_instance

end Tampering

/-! ### Blocks -/

/-- What every operation has, a block of operations has. -/
instance {γ : Type} (b : Block γ) [∀ {β : Type} (o : Op β), Holds P o.run] : Holds P b.run := by
  induction b with
  | done a => unfold Block.run; infer_instance
  | fail e => unfold Block.run; infer_instance
  | step o next ih => unfold Block.run; infer_instance

end Ledger

/-! ## Changes of the ledger -/

section Changes

variable [Ample P]

namespace Sequence

instance (c : Counter) : Holds P (raise c) := by
  unfold raise
  infer_instance

instance (name : String) : Holds P (afterRace name) := by
  unfold afterRace
  refine .bind inferInstance fun _ => .bind inferInstance fun c => ?_
  cases c <;> infer_instance

instance (name : String) : Holds P (next name) := by
  unfold next
  refine .bind inferInstance fun c => ?_
  cases c <;> infer_instance

end Sequence

namespace AuditLog

instance (e : Entry) : Holds P (store e) := by
  unfold store
  infer_instance

instance (loanId : String) (r : AuditRecord) : Holds P (next loanId r) := by
  unfold next
  infer_instance

end AuditLog

namespace Loans

instance (l : Loan) : Holds P (add l) := by
  unfold add
  infer_instance

instance (loanId : String) : Holds P (bump loanId) := by
  unfold bump
  infer_instance

instance (l : Loan) (state : String) : Holds P (write l state) := by
  unfold write
  infer_instance

end Loans

namespace Disbursements

instance (d : Disbursement) : Holds P (add d) := by
  unfold add
  infer_instance

instance (d : Disbursement) (t : Calendar.Timestamp) : Holds P (pay d t) := by
  unfold pay
  infer_instance

end Disbursements

namespace Tampering

instance (loanId : String) (seq : Int) (g : Field) (v : Value) : Holds P (editEntry loanId seq g v) := by
  unfold editEntry
  infer_instance

instance (loanId : String) (seq : Int) : Holds P (eraseEntry loanId seq) := by
  unfold eraseEntry
  infer_instance

end Tampering

instance {γ : Type} (o : Op γ) [Holds P freshId] : Holds P o.run := by
  cases o <;> unfold Op.run <;> infer_instance

end Changes

end LoanLedger.Ledger

/-! ## The engine -/

namespace LoanLedger.Engine

open Ledger (Work Loan Entry Holds Closed Bracketed Full)

variable {α : Type} {P : Ledger.Property}

section Records

variable [Closed P]

instance (e : Event) (stage : String) [Holds P Ledger.checkPasses] : Holds P (checkCancelled e stage) := by
  unfold checkCancelled
  infer_instance

instance (g : Engine) (l : Loan) : Holds P (stateOf g l) := by
  unfold stateOf
  cases g.definition.find? l.state <;> infer_instance

instance [Holds P Ledger.begin] (e : Event) (entry : Option Entry) : Holds P (duplicateOf e entry) := by
  unfold duplicateOf
  infer_instance

instance (g : Engine) (e : Event) (x : Ledger.Error) : Holds P (noteFailure g e x) := by
  unfold noteFailure
  cases x <;> infer_instance

instance (g : Engine) (e : Event) (o : Outcome) : Holds P (noteOutcome g e o) := by
  unfold noteOutcome
  infer_instance

instance [Holds P Ledger.begin] {x : Work α} [Holds P x] : Holds P (inSession x) := by
  unfold inSession
  infer_instance

instance [Holds P Ledger.commit] : Holds P commit := by
  unfold commit
  infer_instance

end Records

/-! ### Work composed of operations -/

section Composed

variable [Closed P]

instance (task : Task) (kind : Ledger.Tranche) [Holds P (Ledger.Disbursements.request task.event.loanId kind)]
    [∀ d, Holds P (Ledger.AuditLog.append task.event.loanId (requestRecord task d))] :
    Holds P (request task kind) := by
  unfold request
  refine .bind inferInstance fun answer => ?_
  cases answer <;> infer_instance

instance (task : Task) [Holds P (Ledger.AuditLog.append task.event.loanId (unknownRecord task))] :
    Holds P (recordUnknown task) := by
  unfold recordUnknown
  infer_instance

instance (h : Dispatcher) (task : Task) [∀ kind, Holds P (request task kind)] [Holds P (recordUnknown task)] :
    Holds P (h.dispatch task) := by
  unfold Dispatcher.dispatch
  cases h.tranche? task.action.kind <;> infer_instance

instance (e : Event) (state : String) [Holds P Ledger.checkPasses]
    [Holds P (Ledger.AuditLog.append e.loanId (ignoredRecord e state))] : Holds P (ignore e state) := by
  unfold ignore
  infer_instance

variable (g : Engine) (e : Event)

instance (fromState : String) (t : Workflow.Transition) (a : Workflow.Action) [Holds P Ledger.checkPasses]
    [Holds P (g.dispatcher.dispatch ⟨e, fromState, t.to, a⟩)] : Holds P (doAction g e fromState t a) := by
  unfold doAction
  infer_instance

instance (fromState : String) (t : Workflow.Transition) [Holds P Ledger.checkPasses]
    [∀ a, Holds P (doAction g e fromState t a)]
    [Holds P (Ledger.Loans.updateState e.loanId t.to (some fromState))]
    [Holds P (Ledger.AuditLog.append e.loanId (transitionRecord e fromState t.to))] :
    Holds P (take g e fromState t) := by
  unfold take
  infer_instance

instance [Holds P (Ledger.Loans.require e.loanId true)] [Holds P (Ledger.AuditLog.findTransition e.key)]
    [∀ state, Holds P (ignore e state)] [∀ fromState t, Holds P (take g e fromState t)] : Holds P (weigh g e) := by
  unfold weigh
  refine .bind inferInstance fun l => .bind inferInstance fun s => .bind inferInstance fun entry => ?_
  cases entry with
  | some entry => infer_instance
  | none => cases s.find? e.type <;> infer_instance

instance [Holds P Ledger.begin] [Holds P (Ledger.AuditLog.findTransition e.key)] : Holds P (resolveDuplicate e) := by
  unfold resolveDuplicate
  infer_instance

end Composed

section Transactions

variable [Bracketed P]

instance (g : Engine) (loanId : String) {x : Work α} [Holds P x] : Holds P (g.transact loanId x) := by
  unfold transact
  infer_instance

instance (g : Engine) (e : Event) [Holds P (weigh g e)] : Holds P (g.decide_ e) := by
  unfold decide_
  refine .bind inferInstance fun r => ?_
  cases r <;> infer_instance

instance (g : Engine) (e : Event) [Holds P (weigh g e)] [Holds P (resolveDuplicate e)] : Holds P (g.apply e) := by
  unfold apply
  infer_instance

instance (g : Engine) (e : Event) [Holds P (g.apply e)] : Holds P (g.handle e) := by
  unfold handle
  infer_instance

end Transactions

section Calls

variable [Full P]

instance (g : Engine) (e : Event) : Holds P (g.handle e) := inferInstance

instance (g : Engine) (c : Call) : Holds P (g.serve c) := by
  cases c with
  | open_ loanId founderId actor => unfold serve openLoan; infer_instance
  | handle e => unfold serve; infer_instance
  | pay loanId id actor => unfold serve markPaid; infer_instance

end Calls

end LoanLedger.Engine
