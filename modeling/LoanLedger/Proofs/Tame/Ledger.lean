import LoanLedger.Proofs.Tame.Basic

/-!
# Why operations fail

* `Sequence.next_tame`, `AuditLog.append_tame`, `Loans.updateState_tame`, `Disbursements.request_tame`, … : the
  causes of which the operations fail that an event needs.
-/

namespace LoanLedger.Ledger

variable {α : Type} {cs : List Cause}

/-! ## Numbers and entries -/

namespace Sequence

theorem locked_tame (name : String) : Tame [.storage] (locked name) := (Tame.query (by decide) _).call

theorem raise_tame (c : Counter) : Tame [.storage, .tooLarge] (raise c) := by
  refine (Tame.change (by decide) fun t e he => ?_).bind fun _ => (Tame.emit (by simp) _ _ _).bind fun _ => .pure _
  split at he <;> cases he
  decide

theorem afterRace_tame (name : String) : Tame [.storage, .tooLarge] (afterRace name) := by
  refine (Tame.emit (by simp) _ _ _).bind fun _ => ((locked_tame name).up (by decide)).bind fun c => ?_
  cases c with
  | some c => exact raise_tame c
  | none => exact .throw .storage rfl (by decide)

theorem next_tame (name : String) : Tame [.storage, .tooLarge] (next name) := by
  refine ((locked_tame name).up (by decide)).bind fun c => ?_
  cases c with
  | some c => exact raise_tame c
  | none =>
    have counted : Tame [.storage, .tooLarge] (do insert (·.addCounter? ⟨name, 1⟩); pure true) :=
      (Tame.insert (by decide)).bind fun _ => .pure true
    refine (counted.savepoint (by decide) (.pure false)).bind fun isFirst => .ite ?_ (afterRace_tame name)
    exact (Tame.emit (by simp) _ _ _).bind fun _ => .pure 1

end Sequence

namespace AuditLog

theorem store_tame (x : Entry) : Tame [.storage, .tooLarge] (store x) := by
  refine (Tame.change (by decide) fun t e he => ?_).bind fun _ => .know _
  split at he
  · cases he; decide
  · split at he
    · cases he; decide
    · split at he <;> cases he
      decide

theorem next_tame (loanId : String) (r : AuditRecord) :
    Tame [.storage, .tooLarge, .clock, .calendar, .content] (next loanId r) := by
  refine ((Sequence.next_tame _).up (by decide)).bind fun seq => (Tame.query (by decide) _).bind fun last => ?_
  refine (Tame.utc (by decide) _).bind fun ts => (Tame.now (by decide)).bind fun t =>
    (Tame.utc (by decide) _).bind fun recordedAt => (Tame.ofExcept fun e he => ?_).bind fun x =>
      ((store_tame x).up (by decide)).bind fun _ => .pure x
  cases hs : (draft loanId seq r ts recordedAt).sealed? (last.map (·.hash)) with
  | ok y => rw [hs] at he; cases he
  | error c => rw [hs] at he; cases he; exact List.mem_of_getLast? rfl

theorem findTransition_tame (key : String) : Tame [.failure .ledgerUnavailable] (findTransition key) := by
  refine .call (Tame.guarded [.storage] ?_ (by decide) (by decide))
  exact ((Tame.query (by decide) _).bind fun rows => Tame.session.bind fun s => .pure _).bind fun es => .pure _

theorem afterConflict_tame (loanId key : String) :
    Tame [.storage, .failure .ledgerUnavailable, .failure .duplicateTransition] (afterConflict loanId key) := by
  refine ((findTransition_tame key).up (by decide)).bind fun found => ?_
  cases found with
  | none => exact .throw .storage rfl (by decide)
  | some x => exact .throw (.failure .duplicateTransition) rfl (by decide)

/-- An entry without a key is not rejected as a duplicate. -/
theorem append_plain_tame (loanId : String) {r : AuditRecord} (hr : r.key = none) :
    Tame [.failure .ledgerUnavailable, .tooLarge, .clock, .calendar, .content] (append loanId r) := by
  refine .call (.bind (Tame.guarded [.storage, .tooLarge, .clock, .calendar, .content] ?_ (by decide) (by decide))
    fun x => (Tame.emit (by simp) _ _ _).bind fun _ => .pure _)
  rw [hr]
  exact next_tame loanId r

theorem append_tame (loanId : String) (r : AuditRecord) :
    Tame [.failure .ledgerUnavailable, .failure .duplicateTransition, .tooLarge, .clock, .calendar, .content]
      (append loanId r) := by
  cases hk : r.key with
  | none => exact (append_plain_tame loanId hk).up (by decide)
  | some key =>
    refine .call (.bind (Tame.guarded [.storage, .failure .ledgerUnavailable, .failure .duplicateTransition,
      .tooLarge, .clock, .calendar, .content] ?_ (by decide) (by decide)) fun x =>
        (Tame.emit (by simp) _ _ _).bind fun _ => .pure _)
    rw [hk]
    exact .savepoint (by decide) ((next_tame loanId r).up (by decide)) ((afterConflict_tame loanId key).up (by decide))

end AuditLog

/-! ## Loans -/

namespace Loans

theorem get_tame (loanId : String) (fresh : Bool) : Tame [.failure .ledgerUnavailable] (get loanId fresh) := by
  refine .call (Tame.guarded [.storage] ((Tame.query (by decide) _).bind fun found => ?_) (by decide)
    (by decide))
  cases found with
  | none => exact .pure none
  | some row => exact Tame.session.bind fun s => (Tame.know _).bind fun _ => .pure _

theorem require_tame (loanId : String) (fresh : Bool) :
    Tame [.failure .ledgerUnavailable, .failure .loanNotFound] (require loanId fresh) := by
  refine ((get_tame loanId fresh).up (by decide)).bind fun found => ?_
  cases found with
  | none => exact .throw (.failure .loanNotFound) rfl (by decide)
  | some l => exact .pure l

theorem giveWay_tame (loanId : String) : Tame cs (giveWay loanId) :=
  (Tame.get.bind fun d => .pure d.hasRival).bind fun _ =>
    .ite (Tame.session.bind fun _ => .setTables _) (.pure ())

theorem write_tame (l : Loan) (state : String) : Tame [.storage] (write l state) := by
  unfold write
  refine .ite (.pure l) ((Tame.change (by decide) fun t e he => ?_).bind fun _ => (Tame.know _).bind fun _ => .pure _)
  split at he <;> cases he
  decide

theorem conflicted_tame (l : Loan) : Tame [.failure .optimisticLock] (conflicted l : Work α) :=
  (Tame.emit (by simp) _ _ _).bind fun _ => .throw (.failure .optimisticLock) rfl (by decide)

theorem written_tame (l : Loan) (state : String) :
    Tame [.storage, .failure .optimisticLock] ((write l state).recover fun e => match e with
      | .storage .stale => conflicted l
      | e => throw e) := by
  refine (write_tame l state).recover fun e => ?_
  split
  · exact ((conflicted_tame l).up (by decide)).meets
  · exact .rethrow fun h => List.mem_append_left _ h

theorem updateState_tame (loanId state : String) (expected : Option String) :
    Tame [.failure .ledgerUnavailable, .failure .loanNotFound, .failure .optimisticLock]
      (updateState loanId state expected) := by
  refine (giveWay_tame loanId).bind fun _ => .call (((require_tame loanId false).up (by decide)).bind fun l => ?_)
  have written := written_tame l state
  dsimp only
  split
  · exact (Tame.throw (.failure .optimisticLock) rfl (by decide)).bind fun _ => (written.guarded _ (by decide)
      (by decide)).bind fun _ => (Tame.emit (by simp) _ _ _).bind fun _ => .pure _
  · exact (written.guarded _ (by decide) (by decide)).bind fun _ => (Tame.emit (by simp) _ _ _).bind fun _ => .pure _

end Loans

/-! ## Disbursements -/

namespace Disbursements

theorem find_tame (loanId : String) (kind : Tranche) : Tame [.failure .ledgerUnavailable] (find loanId kind) := by
  refine .call (Tame.guarded [.storage] ((Tame.query (by decide) _).bind fun found => ?_) (by decide)
    (by decide))
  cases found with
  | none => exact (Tame.pure ()).bind fun _ => .pure _
  | some d => exact (Tame.know _).bind fun _ => .pure _

theorem get_tame (loanId id : String) :
    Tame [.failure .ledgerUnavailable, .failure .disbursementNotFound] (get loanId id) := by
  refine (Tame.guarded [.storage] (Tame.query (by decide) _) (by decide) (by decide)).bind fun found => ?_
  cases found with
  | some d => exact Tame.session.bind fun s => .pure _
  | none => exact .throw (.failure .disbursementNotFound) rfl (by decide)

theorem add_tame (x : Disbursement) : Tame [.storage] (add x) := by
  refine (Tame.change (by decide) fun t e he => ?_).bind fun _ => .know _
  split at he
  · cases he; decide
  · split at he <;> cases he
    decide

/-- A row that was not added tells that there is one. -/
theorem added_tame (loanId : String) (kind : Tranche) (x : Disbursement) :
    Tame [.failure .ledgerUnavailable, .failure .disbursementAlreadyExists] (guarded "create_disbursement" <|
      savepoint (add x) do
        match ← find loanId kind with
        | some winner => throw (alreadyExists winner)
        | none => throw (.storage .conflict)) := by
  have added : Tame [.storage, .failure .ledgerUnavailable, .failure .disbursementAlreadyExists] (savepoint (add x) do
      match ← find loanId kind with
      | some winner => throw (alreadyExists winner)
      | none => throw (.storage .conflict)) := by
    refine .savepoint (by decide) ((add_tame x).up (by decide))
      (((find_tame loanId kind).up (by decide)).bind fun found => ?_)
    cases found with
    | some winner => exact .throw (.failure .disbursementAlreadyExists) rfl (by decide)
    | none => exact .throw .storage rfl (by decide)
  exact added.guarded _ (by decide) (by decide)

theorem submit_tame (loanId : String) (kind : Tranche) :
    Tame [.failure .ledgerUnavailable, .failure .disbursementAlreadyExists, .clock] (submit loanId kind) := by
  refine ((find_tame loanId kind).up (by decide)).bind fun found => ?_
  cases found with
  | some x => exact .throw (.failure .disbursementAlreadyExists) rfl (by decide)
  | none =>
    exact Tame.freshId.bind fun id => (Tame.now (by decide)).bind fun t =>
      ((added_tame loanId kind _).up (by decide)).bind fun _ => .pure _

theorem existing_tame (loanId : String) (f : Failure) :
    Tame [.failure .ledgerUnavailable, .failure .disbursementNotFound] (existing loanId f) :=
  (Tame.emit (by simp) _ _ _).bind fun _ => (get_tame _ _).bind fun _ => .pure _

/-- A request does not fail because there is one. -/
theorem request_tame (loanId : String) (kind : Tranche) :
    Tame [.failure .ledgerUnavailable, .failure .disbursementNotFound, .clock] (request loanId kind) := by
  refine .call ((submit_tame loanId kind).attempt_bind (fun x => ?_) fun e => ?_)
  · exact (Tame.emit (by simp) _ _ _).bind fun _ => .pure _
  · cases e with
    | failure f =>
      dsimp only
      split
      · exact (((existing_tame loanId f).up (by decide)).bind fun _ => .pure _).meets
      · next hk =>
        refine .rethrow fun h => ?_
        simp only [Error.cause, List.mem_cons, Cause.failure.injEq, reduceCtorEq, List.not_mem_nil,
          or_false, hk] at h ⊢
        exact .inl h
    | _ => exact .rethrow (by simp [Error.cause])

end Disbursements

end LoanLedger.Ledger
