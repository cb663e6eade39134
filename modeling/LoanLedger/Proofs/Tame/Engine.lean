import LoanLedger.Engine.Handle
import LoanLedger.Proofs.Calm
import LoanLedger.Proofs.Tame.Ledger

/-!
# Why events fail

* `actionCauses`, `takeCauses`, `handleCauses` : the causes of which an action, a transition and an event fail,
  unless a fault says so;
* `weigh_tame`, `apply_tame`, `locked_tame` : so it is of what an event does, under the lock of its loan and in a
  session of its own.
-/

namespace LoanLedger.Engine

open Ledger Workflow

variable {α : Type} {x : Work α} {cs cs' : List Cause} {g : Engine} {e : Event}

/-! ## Actions -/

def actionCauses : List Cause := [
  .failure .eventCancelled, .failure .ledgerUnavailable, .failure .disbursementNotFound,
  .failure .disbursementService, .tooLarge, .clock, .calendar, .content, .external]

theorem checkCancelled_tame (e : Event) (stage : String) : Tame [.failure .eventCancelled] (checkCancelled e stage) :=
  .call (Tame.checkPasses.bind fun _ => .ite (.throw (.failure .eventCancelled) rfl (by decide)) (.pure ()))

theorem serviceFailure_meets (err : Ledger.Error) :
    Meets [.failure .ledgerUnavailable, .failure .disbursementNotFound, .clock]
    actionCauses err (throw (serviceFailure err) : Work α) := by
  unfold serviceFailure
  split
  · split
    · exact (Tame.throw (.failure .disbursementService) rfl (by decide)).meets
    · exact .rethrow fun h => absurd h (by simp [Error.cause])
  · refine .rethrow fun h => ?_
    have hsub : [Cause.failure .ledgerUnavailable, .failure .disbursementNotFound, .clock] ⊆ actionCauses := by decide
    exact hsub h

theorem request_tame (task : Task) (kind : Tranche) : Tame actionCauses (request task kind) := by
  refine ((Disbursements.request_tame _ kind).recover serviceFailure_meets).bind fun answer => ?_
  cases answer with
  | none => exact .throw .external rfl (by decide)
  | some answer =>
    refine (Tame.know _).bind fun _ => ?_
    dsimp only
    split
    · exact ((AuditLog.append_plain_tame _ rfl).up (by decide)).bind fun _ => .pure _
    · exact .pure _

theorem recordUnknown_tame (task : Task) : Tame actionCauses (recordUnknown task) :=
  (Tame.emit (by simp) _ _ _).bind fun _ => ((AuditLog.append_plain_tame _ rfl).up (by decide)).bind fun _ => .pure _

theorem dispatch_tame (h : Dispatcher) (task : Task) : Tame actionCauses (h.dispatch task) := by
  unfold Dispatcher.dispatch
  cases h.tranche? task.action.kind with
  | some kind => exact (request_tame task kind).bind fun r => (Tame.emit (by simp) _ _ _).bind fun _ => .pure r
  | none => exact (recordUnknown_tame task).bind fun r => (Tame.emit (by simp) _ _ _).bind fun _ => .pure r

theorem doAction_tame (g : Engine) (e : Event) (fromState : String) (t : Transition) (a : Action) :
    Tame actionCauses (g.doAction e fromState t a) :=
  ((checkCancelled_tame e _).up (by decide)).bind fun _ => dispatch_tame _ _

/-! ## Transitions -/

def takeCauses : List Cause :=
  .failure .loanNotFound :: .failure .optimisticLock :: .failure .duplicateTransition :: actionCauses

theorem ignore_tame (e : Event) (state : String) : Tame actionCauses (ignore e state) :=
  ((AuditLog.append_plain_tame _ rfl).up (by decide)).bind fun _ =>
    ((checkCancelled_tame e _).up (by decide)).bind fun _ => .pure _

theorem take_tame (g : Engine) (e : Event) (fromState : String) (t : Transition) :
    Tame takeCauses (g.take e fromState t) :=
  ((Tame.mapM (doAction_tame g e fromState t) _).up (by decide)).bind fun _ =>
    ((Loans.updateState_tame _ _ _).up (by decide)).bind fun _ =>
      ((AuditLog.append_tame _ _).up (by decide)).bind fun _ =>
      ((checkCancelled_tame e _).up (by decide)).bind fun _ => .pure _

theorem stateOf_tame (g : Engine) (l : Loan) : Tame [.failure .invalidState] (g.stateOf l) := by
  unfold stateOf
  split
  · exact .pure _
  · exact (Tame.emit (by simp) _ _ _).bind fun _ => .throw (.failure .invalidState) rfl (by decide)

/-- What follows the state of a loan. -/
theorem weighed_tame (g : Engine) (e : Event) (l : Loan) (s : State) : Tame takeCauses (do
    match ← AuditLog.findTransition e.key with
    | some entry => pure (.inl entry)
    | none => match s.find? e.type with
      | none => .inr <$> ignore e l.state
      | some t => .inr <$> g.take e l.state t : Work (Entry ⊕ Decision)) := by
  refine ((AuditLog.findTransition_tame _).up (by decide)).bind fun entry => ?_
  cases entry with
  | some entry => exact .pure _
  | none =>
    dsimp only
    split
    · exact ((ignore_tame e _).up (by decide)).map
    · exact (take_tame g e _ _).map

theorem weigh_tame (g : Engine) (e : Event) : Tame (.failure .invalidState :: takeCauses) (g.weigh e) :=
  ((Loans.require_tame _ _).up (by decide)).bind fun l => ((stateOf_tame g l).up (by decide)).bind fun s =>
    (weighed_tame g e l s).up (by decide)

/-! ## Events -/

def handleCauses : List Cause :=
  .failure .lockTimeout :: .patience :: .stuck :: .failure .invalidState :: .failure .loanNotFound ::
    .failure .optimisticLock :: actionCauses

theorem commit_tame : Tame [.failure .ledgerUnavailable] commit := by
  refine Tame.guarded [.storage] (.call (Tame.session.bind fun s => ?_)) (by decide) (by decide)
  have stored : Tame [.storage] (modify fun d => { d with store := d.session.tables } : Work Unit) :=
    .modify (fun d => { Desk.Beside.refl d with }) fun _ => rfl
  dsimp only
  split
  · exact (Tame.throw .storage rfl (by decide)).bind fun _ => stored
  · exact stored

theorem duplicateOf_tame (e : Event) (entry : Option Entry) : Tame [.content] (duplicateOf e entry) := by
  refine (Tame.ofExcept fun err he => ?_).bind fun _ => Tame.begin.bind fun _ =>
    (Tame.emit (by simp) _ _ _).bind fun _ => .pure _
  cases hr : entry.elim (.ok []) (·.details?) with
  | ok es => rw [hr] at he; cases he
  | error c => rw [hr] at he; cases he; exact .head _

theorem decide_tame (g : Engine) (e : Event) : Tame (.failure .invalidState :: takeCauses) (g.decide_ e) := by
  refine (weigh_tame g e).bind fun r => ?_
  cases r with
  | inl entry => exact (duplicateOf_tame e _).up (by decide)
  | inr c => exact (commit_tame.up (by decide)).bind fun _ => .pure c

theorem resolveDuplicate_tame (e : Event) : Tame [.failure .ledgerUnavailable, .content] (resolveDuplicate e) := by
  have found : Tame [.failure .ledgerUnavailable] (guarded "find_transition_entry" (AuditLog.findTransition e.key)) :=
    (AuditLog.findTransition_tame e.key).guarded _ (by decide) (by decide)
  exact Tame.begin.bind fun _ => (found.up (by decide)).bind fun entry => (duplicateOf_tame e entry).up (by decide)

/-- An event does not fail because it was applied before. -/
theorem resolved_tame (g : Engine) (e : Event) : Tame handleCauses ((g.decide_ e).recover fun x =>
    if x.isDuplicate then resolveDuplicate e else throw x) := by
  refine (decide_tame g e).recover fun err => ?_
  split
  · exact ((resolveDuplicate_tame e).up (by decide)).meets
  · next hd =>
    refine .rethrow fun h => ?_
    have hsub : ∀ c ∈ Cause.failure .invalidState :: takeCauses, c = .failure .duplicateTransition ∨
        c ∈ handleCauses := by
      decide
    refine (hsub _ h).resolve_left fun hc => hd ?_
    cases err with
    | failure f => simpa [Error.isDuplicate, Error.kind?, Error.cause] using hc
    | _ => cases hc

theorem inSession_tame (hx : Tame cs x) : Tame cs (inSession x) :=
  Tame.begin.bind fun _ => hx.attempt_bind (fun a => Tame.begin.bind fun _ => .pure a) fun _ =>
    .rethrowAfter .begin id

theorem apply_tame (g : Engine) (e : Event) : Tame handleCauses (g.apply e) :=
  inSession_tame (resolved_tame g e)

theorem lockFailed_tame (loanId : String) (timeout : Value) (r : Locks.Error) :
    Tame [.failure .lockTimeout, .patience, .stuck] (lockFailed loanId timeout r : Work α) := by
  cases r with
  | timedOut => exact (Tame.emit (by simp) _ _ _).bind fun _ => .throw (.failure .lockTimeout) rfl (by decide)
  | stuck => exact .throw .stuck rfl (by decide)
  | patience err => exact .throw .patience rfl (by decide)

/-- What is done under the lock of a loan. -/
theorem withLock_tame {loanId : String} {timeout : Value} (hx : Tame handleCauses x) :
    Tame handleCauses (withLock loanId timeout x) := by
  refine ⟨fun d =>
    ⟨Kept.withLock (R := Desk.Beside) (fun hl h => ?_) (fun d => (hx.quiet d).toBeside) d, ?_⟩, ?_⟩
  · exact { h with locks := (congrArg (·.leave loanId) h.locks).trans (Locks.leave_hold hl) }
  · cases hl : (d.locks.hold loanId timeout).2 with
    | error r =>
      rw [Work.desk, withLock_refused hl]
      exact ((lockFailed_tame loanId timeout r).quiet d).traces
    | ok _ =>
      have quiet := hx.quiet (d.held loanId timeout)
      cases hr : x (d.held loanId timeout) with
      | ok a d₁ =>
        rw [Work.desk_of_ok hr] at quiet
        rw [Work.desk_of_ok (withLock_of_ok hl hr)]
        exact quiet.traces
      | error err d₁ =>
        rw [Work.desk_of_error hr] at quiet
        rw [Work.desk_of_error (withLock_of_error hl hr)]
        exact quiet.traces
  · intro d err d' he
    cases hl : (d.locks.hold loanId timeout).2 with
    | error r =>
      rw [withLock_refused hl] at he
      exact ((lockFailed_tame loanId timeout r).up (by decide)).error he
    | ok _ => cases hr : x (d.held loanId timeout) with
      | ok a d₁ =>
        rw [withLock_of_ok hl hr] at he
        cases he
      | error err₁ d₁ =>
        rw [withLock_of_error hl hr] at he
        cases he
        have failed : err.cause ∈ handleCauses ∨ (d.held loanId timeout).Plans err := hx.error hr
        exact failed

def locked (g : Engine) (e : Event) : Work Decision :=
  withLock e.loanId g.lockTimeout do
    checkCancelled e "lock_acquired"
    g.apply e

theorem locked_tame (g : Engine) (e : Event) : Tame handleCauses (g.locked e) :=
  withLock_tame (((checkCancelled_tame e _).up (by decide)).bind fun _ => apply_tame g e)

/-! ## The whole -/

variable {d d' : Desk} {o : Outcome} {err : Ledger.Error}

/-- An event is answered by what it decided, and the trace of that is written. -/
theorem handle_ok (h : g.handle e d = .ok o d') :
    ∃ c d₁ d₂, g.locked e (d.bound (eventContext e)) = .ok c d₁ ∧ o = Outcome.of e c ∧
      g.noteOutcome e o d₁ = .ok () d₂ ∧ d' = { d₂ with context := d.context } := by
  obtain ⟨d₂, hw, rfl⟩ := withContext_ok h
  obtain ⟨c, d₁, hr, h₁⟩ := Work.bind_ok hw
  obtain ⟨_, d₃, hn, h₂⟩ := Work.bind_ok h₁
  cases h₂
  rcases Work.recover_ok hr with hl | ⟨err, d₄, -, hh⟩
  · exact ⟨c, d₁, d₂, hl, rfl, hn, rfl⟩
  · obtain ⟨_, _, -, hh⟩ := Work.bind_ok hh
    cases hh

/-- An event fails as what it does under the lock, and the trace of that is written. -/
theorem handle_error (h : g.handle e d = .error err d') :
    ∃ d₁ d₂, g.locked e (d.bound (eventContext e)) = .error err d₁ ∧
      g.noteFailure e err d₁ = .ok () d₂ ∧ d' = { d₂ with context := d.context } := by
  obtain ⟨d₂, hw, rfl⟩ := withContext_error h
  rcases Work.bind_error hw with hw | ⟨c, d₁, -, hw⟩
  · obtain ⟨err₁, d₁, hl, hh⟩ := Work.recover_error hw
    obtain ⟨log, hn⟩ := noteFailure_run g e err₁ d₁
    rw [Work.bind_of_ok hn] at hh
    cases hh
    exact ⟨d₁, _, hl, hn, rfl⟩
  · obtain ⟨log, hn⟩ := emit_run .info "services.workflow_engine" "workflow_transition"
      ((Outcome.of e c).trace g.definition e) d₁
    cases (Work.bind_of_ok hn).symm.trans hw

end LoanLedger.Engine
