import LoanLedger.Engine.Handle
import LoanLedger.Proofs.Outages.Ledger
import LoanLedger.Proofs.Retry
import LoanLedger.Proofs.Serving

/-!
# Callers are told of outages

* `handle_reports`, `markPaid_reports`, `currentState_reports`, … : the caller of an engine is told that the ledger is
  unavailable whenever the storage fails a statement before the commit;
* `openLoan_error_outages` : in opening a loan the caller is told so, except that an outage while the row is added is
  passed on as it is;
* `Operation α` : what callers do with the ledger: calls of an engine, what it shows of a loan, and the operations of a
  transaction;
* `Operation.FailsAdding o d` : the operation opens a loan, and the storage fails a statement that adds its row;
* `outages_told` : no operation goes well when the storage fails a statement of it; then the caller is told that the
  ledger is unavailable, unless the row of a loan was being added: there the error of the storage is passed on;
* `outage_passed_on` : so that a caller can get an error of the storage.
-/

namespace LoanLedger.Engine

open Ledger Workflow

variable {α : Type} {x : Work α} {d d' : Desk} {g : Engine} {e : Event} {err : Ledger.Error}
    {E : Ledger.Error → Prop}

/-! ## Actions -/

theorem checkCancelled_reports (e : Event) (stage : String) : Reports E (checkCancelled e stage) :=
  .call (by decide) (Reports.checkPasses.bind fun _ => .ite (.throw _) (.pure ()))

theorem request_reports (task : Task) (kind : Tranche) : Reports Error.IsUnavailable (request task kind) := by
  have asked : Reports Error.IsUnavailable (Work.recover (Disbursements.request task.event.loanId kind)
      fun e => throw (serviceFailure e)) := by
    refine (Disbursements.request_reports _ kind).recover (fun e => .throw _) fun e he => ?_
    obtain ⟨operation, rfl⟩ := he
    exact .of_throw ⟨operation, rfl⟩
  refine asked.bind fun answer => ?_
  cases answer with
  | none => exact .throw _
  | some answer =>
    refine (Reports.know _).bind fun _ => .ite ?_ (.pure _)
    exact (AuditLog.append_reports _ _).bind fun _ => .pure _

theorem recordUnknown_reports (task : Task) : Reports Error.IsUnavailable (recordUnknown task) :=
  (Reports.emit _ _ _ _).bind fun _ => (AuditLog.append_reports _ _).bind fun _ => .pure _

theorem dispatch_reports (h : Dispatcher) (task : Task) : Reports Error.IsUnavailable (h.dispatch task) := by
  unfold Dispatcher.dispatch
  cases h.tranche? task.action.kind with
  | some kind => exact (request_reports task kind).bind fun r => (Reports.emit _ _ _ _).bind fun _ => .pure r
  | none => exact (recordUnknown_reports task).bind fun r => (Reports.emit _ _ _ _).bind fun _ => .pure r

theorem doAction_reports (g : Engine) (e : Event) (fromState : String) (t : Transition) (a : Action) :
    Reports Error.IsUnavailable (g.doAction e fromState t a) :=
  (checkCancelled_reports e _).bind fun _ => dispatch_reports _ _

/-! ## Transitions -/

theorem ignore_reports (e : Event) (state : String) : Reports Error.IsUnavailable (ignore e state) :=
  (AuditLog.append_reports _ _).bind fun _ => (checkCancelled_reports e _).bind fun _ => .pure _

theorem take_reports (g : Engine) (e : Event) (fromState : String) (t : Transition) :
    Reports Error.IsUnavailable (g.take e fromState t) :=
  (Reports.mapM (doAction_reports g e fromState t) _).bind fun _ => (Loans.updateState_reports _ _ _).bind fun _ =>
    (AuditLog.append_reports _ _).bind fun _ => (checkCancelled_reports e _).bind fun _ => .pure _

theorem stateOf_reports (g : Engine) (l : Loan) : Reports E (g.stateOf l) := by
  unfold stateOf
  split
  · exact .pure _
  · exact (Reports.emit _ _ _ _).bind fun _ => .throw _

theorem weigh_reports (g : Engine) (e : Event) : Reports Error.IsUnavailable (g.weigh e) := by
  refine (Loans.require_reports _ _).bind fun l => (stateOf_reports g l).bind fun s =>
    (AuditLog.findTransition_reports _).bind fun entry => ?_
  cases entry with
  | some entry => exact .pure _
  | none =>
    dsimp only
    split
    · exact (ignore_reports e _).map
    · exact (take_reports g e _ _).map

/-! ## Events -/

theorem commit_reports : Reports E commit := by
  have done : Reports (fun _ => False) Ledger.commit := by
    refine .call (by decide) (Reports.session.bind fun s => ?_)
    have stored : Reports (fun _ => False) (modify fun d => { d with store := d.session.tables } : Work Unit) :=
      .of_modify fun _ => rfl
    dsimp only
    split
    · exact (Reports.throw _).bind fun _ => stored
    · exact stored
  refine done.recover (fun err => ?_) fun _ h => h.elim
  split
  · exact (Reports.emit _ _ _ _).bind fun _ => .throw _
  · exact .throw _

theorem duplicateOf_reports (e : Event) (entry : Option Entry) : Reports E (duplicateOf e entry) :=
  (Reports.ofExcept _).bind fun _ => Reports.begin.bind fun _ => (Reports.emit _ _ _ _).bind fun _ => .pure _

theorem decide_reports (g : Engine) (e : Event) : Reports Error.IsUnavailable (g.decide_ e) := by
  refine (weigh_reports g e).bind fun r => ?_
  cases r with
  | inl entry => exact duplicateOf_reports e _
  | inr c => exact commit_reports.bind fun _ => .pure c

theorem resolveDuplicate_reports (e : Event) : Reports Error.IsUnavailable (resolveDuplicate e) :=
  Reports.begin.bind fun _ => (((AuditLog.findTransition_reports e.key).up fun _ => .inr).guarded).bind fun entry =>
    duplicateOf_reports e entry

theorem apply_reports (g : Engine) (e : Event) : Reports Error.IsUnavailable (g.apply e) := by
  refine .inSession ((decide_reports g e).recover (fun x => .ite (resolveDuplicate_reports e) (.throw x))
    fun x hx => ?_)
  obtain ⟨operation, rfl⟩ := hx
  exact .of_throw ⟨operation, rfl⟩

theorem handle_reports (g : Engine) (e : Event) : Reports Error.IsUnavailable (g.handle e) := by
  have locked : Reports Error.IsUnavailable (withLock e.loanId g.lockTimeout do
      checkCancelled e "lock_acquired"
      g.apply e) := .withLock ((checkCancelled_reports e _).bind fun _ => apply_reports g e)
  refine .withContext ((locked.recover (fun x => ?_) fun x hx => ?_).bind fun _ =>
    (Reports.emit _ _ _ _).bind fun _ => .pure _)
  · cases x with
    | failure f => exact (Reports.emit _ _ _ _).bind fun _ => .throw _
    | _ => exact (Reports.pure ()).bind fun _ => .throw _
  · obtain ⟨operation, rfl⟩ := hx
    exact .of_emit ⟨operation, rfl⟩

/-! ## Other calls -/

theorem transact_reports (g : Engine) (loanId : String) (hx : Reports E x) : Reports E (g.transact loanId x) :=
  .withLock (.inSession (hx.bind fun _ => commit_reports.bind fun _ => .pure _))

theorem markPaid_reports (g : Engine) (loanId id actor : String) :
    Reports Error.IsUnavailable (g.markPaid loanId id actor) :=
  transact_reports g loanId (Disbursements.markPaid_reports loanId id actor)

theorem currentState_reports (loanId : String) : Reports Error.IsUnavailable (currentState loanId) :=
  .inSession ((Loans.require_reports loanId false).bind fun _ => .pure _)

theorem auditLog_reports (loanId : String) : Reports Error.IsUnavailable (auditLog loanId) :=
  .inSession (.guarded_of_statements (AuditLog.views_reports loanId none))

/-- When the storage fails a statement while a loan is opened, the caller is told that the ledger is unavailable, except
that an outage while the row is added is passed on as it is. -/
theorem openLoan_error_outages {loanId founderId actor : String}
    (h : g.openLoan loanId founderId actor d = .error err d') (hd : d'.outages ≠ d.outages) :
    (Loans.FailsAdding (Loans.initial loanId founderId g.definition) (d.entered loanId g.lockTimeout) ∧
      err.IsOutage) ∨
      (¬ Loans.FailsAdding (Loans.initial loanId founderId g.definition) (d.entered loanId g.lockTimeout) ∧
        err.IsUnavailable) := by
  cases hl : (d.locks.hold loanId g.lockTimeout).2 with
  | error r =>
    have refused : g.openLoan loanId founderId actor d = lockFailed loanId g.lockTimeout r d := withLock_refused hl
    have none := (Reports.lockFailed (E := fun _ => False) loanId g.lockTimeout r).error (refused.symm.trans h)
    exact absurd (none.resolve_right id) hd
  | ok u =>
    cases ho : Loans.open_ loanId founderId g.definition actor (d.entered loanId g.lockTimeout) with
    | error err₁ d₁ =>
      have failed : g.openLoan loanId founderId actor d = _ :=
        withLock_of_error hl (inSession_of_error (Work.bind_of_error ho))
      cases failed.symm.trans h
      exact Loans.open_error_outages ho hd
    | ok l d₁ =>
      -- what is left is to commit, which sends no statement
      have opened : d₁.outages = (d.entered loanId g.lockTimeout).outages := Loans.open_ok_outages ho
      cases hc : (do commit; pure l : Work Loan) d₁ with
      | ok l' d₂ =>
        have done : g.openLoan loanId founderId actor d = _ :=
          withLock_of_ok hl (inSession_of_ok ((Work.bind_of_ok ho).trans hc))
        cases done.symm.trans h
      | error err₂ d₂ =>
        have failed : g.openLoan loanId founderId actor d = _ :=
          withLock_of_error hl (inSession_of_error ((Work.bind_of_ok ho).trans hc))
        have none := (commit_reports (E := fun _ => False)).bind fun _ => Reports.pure l
        cases failed.symm.trans h
        exact absurd (((none.error hc).resolve_right id).trans opened) hd

end LoanLedger.Engine

/-! ## Operations -/

namespace LoanLedger.Ledger

open Engine (Call Answer still noon)

variable {α : Type}

/-- What callers do with the ledger. -/
inductive Operation : Type → Type where
  | serve (g : Engine) (c : Call) : Operation Answer
  | currentState (loanId : String) : Operation String
  | auditLog (loanId : String) : Operation (List AuditLog.View)
  | getLoan (loanId : String) (fresh : Bool) : Operation (Option Loan)
  | requireLoan (loanId : String) (fresh : Bool) : Operation Loan
  | openLoan (loanId founderId : String) (x : Workflow.Definition) (actor : String) : Operation Loan
  | updateState (loanId state : String) (expected : Option String) : Operation (Option Loan)
  | append (loanId : String) (r : AuditRecord) : Operation (Option Entry)
  | findTransition (key : String) : Operation (Option Entry)
  | verify (loanId : String) : Operation Unit
  | findDisbursement (loanId : String) (kind : Tranche) : Operation (Option Disbursement)
  | getDisbursement (loanId id : String) : Operation Disbursement

namespace Operation

/-- Does an operation. -/
def run : Operation α → Work α
  | serve g c => g.serve c
  | currentState loanId => Engine.currentState loanId
  | auditLog loanId => Engine.auditLog loanId
  | getLoan loanId fresh => Loans.get loanId fresh
  | requireLoan loanId fresh => Loans.require loanId fresh
  | openLoan loanId founderId x actor => Loans.open_ loanId founderId x actor
  | updateState loanId state expected => Loans.updateState loanId state expected
  | append loanId r => AuditLog.append loanId r
  | findTransition key => AuditLog.findTransition key
  | verify loanId => AuditLog.verify loanId
  | findDisbursement loanId kind => Disbursements.find loanId kind
  | getDisbursement loanId id => Disbursements.get loanId id

/-- The operation opens a loan, and the storage fails a statement that adds its row. -/
def FailsAdding : Operation α → Desk → Prop
  | serve g (.open_ loanId founderId _), d =>
    Loans.FailsAdding (Loans.initial loanId founderId g.definition) (d.entered loanId g.lockTimeout)
  | openLoan loanId founderId x _, d => Loans.FailsAdding (Loans.initial loanId founderId x) d
  | _, _ => False

def Opens : Operation α → Prop
  | serve _ (.open_ ..) | openLoan .. => True
  | _ => False

variable {o : Operation α} {d d' : Desk} {e : Error}

theorem reports_of_not_opens (h : ¬ o.Opens) : Reports Error.IsUnavailable o.run := by
  cases o with
  | serve g c => cases c with
    | open_ loanId founderId actor => exact absurd trivial h
    | handle e => exact (Engine.handle_reports g e).map
    | pay loanId id actor => exact (Engine.markPaid_reports g loanId id actor).map
  | currentState loanId => exact Engine.currentState_reports loanId
  | auditLog loanId => exact Engine.auditLog_reports loanId
  | getLoan loanId fresh => exact Loans.get_reports loanId fresh
  | requireLoan loanId fresh => exact Loans.require_reports loanId fresh
  | openLoan loanId founderId x actor => exact absurd trivial h
  | updateState loanId state expected => exact Loans.updateState_reports loanId state expected
  | append loanId r => exact AuditLog.append_reports loanId r
  | findTransition key => exact AuditLog.findTransition_reports key
  | verify loanId => exact AuditLog.verify_reports loanId
  | findDisbursement loanId kind => exact Disbursements.find_reports loanId kind
  | getDisbursement loanId id => exact Disbursements.get_reports loanId id

theorem not_failsAdding_of_not_opens (h : ¬ o.Opens) : ¬ o.FailsAdding d := by
  cases o with
  | serve g c => cases c with
    | open_ loanId founderId actor => exact absurd trivial h
    | _ => exact id
  | openLoan loanId founderId x actor => exact absurd trivial h
  | _ => exact id

/-- No operation goes well when the storage fails a statement of it. -/
theorem ok_outages {a : α} (h : o.run d = .ok a d') : d'.outages = d.outages := by
  by_cases ho : o.Opens
  · cases o with
    | serve g c => cases c with
      | open_ loanId founderId actor =>
        obtain ⟨l, hl, -⟩ := Work.map_ok h
        exact (Engine.transact_reports g loanId (Loans.open_reports loanId founderId g.definition actor)).ok hl
      | _ => exact ho.elim
    | openLoan loanId founderId x actor => exact Loans.open_ok_outages h
    | _ => exact ho.elim
  · exact (reports_of_not_opens ho).ok h

/-- When it fails then, the error tells of the outage by where it happened. -/
theorem error_outages (h : o.run d = .error e d') (hd : d'.outages ≠ d.outages) :
    (o.FailsAdding d ∧ e.IsOutage) ∨ (¬ o.FailsAdding d ∧ e.IsUnavailable) := by
  by_cases ho : o.Opens
  · cases o with
    | serve g c => cases c with
      | open_ loanId founderId actor => exact Engine.openLoan_error_outages (Work.map_error h) hd
      | _ => exact ho.elim
    | openLoan loanId founderId x actor => exact Loans.open_error_outages h hd
    | _ => exact ho.elim
  · exact .inr ⟨not_failsAdding_of_not_opens ho, ((reports_of_not_opens ho).error h).resolve_left hd⟩

end Operation

/-- Callers are told of outages. Whatever else disturbs it, an operation during which the storage fails a statement, and
not because somebody else was first, does not go well: the caller is told that the ledger is unavailable. Only where the
statement was one of those that add the row of a new loan, the error of the storage is passed on as it is. -/
theorem outages_told (o : Operation α) (d : Desk) :
    (∀ a d', o.run d = .ok a d' → d'.outages = d.outages) ∧
    ∀ e d', o.run d = .error e d' → d'.outages ≠ d.outages →
      (¬ o.FailsAdding d → e.IsUnavailable) ∧ (o.FailsAdding d → e.IsOutage) := by
  refine ⟨fun a d' => Operation.ok_outages, fun e d' h hd => ?_⟩
  rcases Operation.error_outages h hd with ⟨hf, he⟩ | ⟨hf, he⟩
  · exact ⟨fun hn => absurd hf hn, fun _ => he⟩
  · exact ⟨fun _ => he, fun ha => absurd ha hf⟩

/-- The desk at which the storage fails the statement with a number. -/
def Desk.failing (d : Desk) (n : Nat) : Desk :=
  { d with faults := [⟨.statement, .fail (some n) (.storage .outage), 0⟩] }

/-- A loan is opened under a definition that lets it stand still. -/
def openStill : Operation Answer := .serve still (.open_ "L1" "F1" systemActor)

theorem outages_told_at_noon :
    ∃ e d', openStill.run (noon.failing 5) = .error e d' ∧ d'.outages ≠ (noon.failing 5).outages ∧
      ¬ openStill.FailsAdding (noon.failing 5) ∧ e.IsUnavailable := by
  obtain ⟨d', h, hd⟩ :
      ∃ d', openStill.run (noon.failing 5) = .error (.failure (.ledgerUnavailable "append_log")) d' ∧
        d'.outages = 1 := ⟨_, rfl, rfl⟩
  have struck : d'.outages ≠ (noon.failing 5).outages := by rw [hd]; decide
  obtain ⟨told, passed⟩ := (outages_told openStill (noon.failing 5)).2 _ d' h struck
  have outside : ¬ openStill.FailsAdding (noon.failing 5) := fun ha => by
    obtain ⟨r, hr, -⟩ := passed ha
    cases hr
  exact ⟨_, d', h, struck, outside, told outside⟩

/-- A caller can get an error of the storage: nothing tells it of an outage while the row of a loan is added. -/
theorem outage_passed_on :
    ¬ ∀ (o : Operation Answer) (d : Desk) (e : Error) (d' : Desk), o.run d = .error e d' →
      d'.outages ≠ d.outages → e.IsUnavailable := by
  intro h
  obtain ⟨d', hr, hd⟩ : ∃ d', openStill.run (noon.failing 3) = .error (.storage .outage) d' ∧ d'.outages = 1 :=
    ⟨_, rfl, rfl⟩
  obtain ⟨operation, ho⟩ := h openStill (noon.failing 3) _ d' hr (by rw [hd]; decide)
  cases ho

end LoanLedger.Ledger
