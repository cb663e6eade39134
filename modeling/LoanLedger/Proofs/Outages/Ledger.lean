import LoanLedger.Ledger.Loans
import LoanLedger.Ledger.Disbursements
import LoanLedger.Proofs.Outages.Basic

/-!
# Operations report outages

* `AuditLog.append_reports`, `Loans.updateState_reports`, `Disbursements.request_reports`, … : the caller of an
  operation is told that the ledger is unavailable whenever the storage fails a statement of it;
* `Loans.adding l`, `Loans.FailsAdding l d` : the row of a new loan is added, and the storage fails a statement of that;
* `Loans.open_error_outages` : in opening a loan the caller is told so, except that an outage while the row is added
  is passed on as it is.
-/

namespace LoanLedger.Ledger

variable {α : Type} {d d' : Desk} {e : Error}

/-! ## Numbers and entries -/

namespace Sequence

theorem locked_reports (name : String) : Reports Error.IsOutage (locked name) := .call (by decide) (.query _)

theorem raise_reports (c : Counter) : Reports Error.IsOutage (raise c) :=
  (Reports.change _).bind fun _ => (Reports.emit _ _ _ _).bind fun _ => .pure _

theorem afterRace_reports (name : String) : Reports Error.IsOutage (afterRace name) := by
  refine (Reports.emit _ _ _ _).bind fun _ => (locked_reports name).bind fun c => ?_
  cases c with
  | some c => exact raise_reports c
  | none => exact .throw _

theorem next_reports (name : String) : Reports Error.TellsOutage (next name) := by
  refine ((locked_reports name).up fun _ => .inl).bind fun c => ?_
  cases c with
  | some c => exact (raise_reports c).up fun _ => .inl
  | none =>
    have counted : Reports Error.TellsOutage (do insert (·.addCounter? ⟨name, 1⟩); pure true) :=
      ((Reports.insert _).up fun _ => .inl).bind fun _ => .pure true
    refine (counted.savepoint_tells (.pure false)).bind fun isFirst =>
      .ite ?_ ((afterRace_reports name).up fun _ => .inl)
    exact (Reports.emit _ _ _ _).bind fun _ => .pure 1

end Sequence

namespace AuditLog

theorem store_reports (x : Entry) : Reports Error.IsOutage (store x) := (Reports.change _).bind fun _ => .know _

theorem next_reports (loanId : String) (r : AuditRecord) : Reports Error.TellsOutage (next loanId r) :=
  (Sequence.next_reports _).bind fun _ => ((Reports.query _).up fun _ => .inl).bind fun _ =>
    (Reports.utc _).bind fun _ => Reports.now.bind fun _ => (Reports.utc _).bind fun _ =>
      (Reports.ofExcept _).bind fun x => ((store_reports x).up fun _ => .inl).bind fun _ => .pure x

theorem ask_reports (f : Tables → List Entry) : Reports Error.IsOutage (ask f) :=
  (Reports.query _).bind fun _ => Reports.session.bind fun _ => .pure _

theorem findTransition_reports (key : String) : Reports Error.IsUnavailable (findTransition key) :=
  .call (by decide) (.guarded_of_statements ((ask_reports _).bind fun _ => .pure _))

theorem afterConflict_reports (loanId key : String) : Reports Error.IsUnavailable (afterConflict loanId key) := by
  refine (findTransition_reports key).bind fun found => ?_
  cases found <;> exact .throw _

theorem append_reports (loanId : String) (r : AuditRecord) : Reports Error.IsUnavailable (append loanId r) := by
  refine .call (by decide) (.bind (.guarded ?_) fun x => (Reports.emit _ _ _ _).bind fun _ => .pure _)
  cases r.key with
  | none => exact next_reports loanId r
  | some key => exact (next_reports loanId r).savepoint_tells ((afterConflict_reports loanId key).up fun _ => .inr)

theorem verify_reports (loanId : String) : Reports Error.IsUnavailable (verify loanId) := by
  refine (Reports.guarded_of_statements (ask_reports _)).bind fun es => (Reports.ofExcept _).bind fun b => ?_
  cases b with
  | none => exact .pure ()
  | some b => exact (Reports.emit _ _ _ _).bind fun _ => .throw _

theorem views_reports (loanId : String) (tag? : Option Audit.Tag) : Reports Error.IsOutage (views loanId tag?) :=
  (ask_reports _).bind fun _ => .ofExcept _

end AuditLog

/-! ## Loans -/

namespace Loans

theorem get_reports (loanId : String) (fresh : Bool) : Reports Error.IsUnavailable (get loanId fresh) := by
  refine .call (by decide) (.guarded_of_statements ((Reports.query _).bind fun found => ?_))
  cases found with
  | none => exact .pure none
  | some row => exact Reports.session.bind fun s => (Reports.know _).bind fun _ => .pure _

theorem require_reports (loanId : String) (fresh : Bool) : Reports Error.IsUnavailable (require loanId fresh) := by
  refine (get_reports loanId fresh).bind fun found => ?_
  cases found with
  | none => exact .throw _
  | some l => exact .pure l

theorem giveWay_reports (loanId : String) : Reports Error.IsUnavailable (giveWay loanId) :=
  (Reports.get.bind fun d => .pure d.hasRival).bind fun _ =>
    .ite (Reports.session.bind fun _ => .of_modify fun _ => rfl) (.pure ())

theorem write_reports (l : Loan) (state : String) : Reports Error.IsOutage (write l state) := by
  unfold write
  exact .ite (.pure l) ((Reports.change _).bind fun _ => (Reports.know _).bind fun _ => .pure _)

/-- A row that was changed by somebody else is told of in its own way, which is no outage. -/
theorem written_reports (l : Loan) (state : String) :
    Reports Error.IsOutage ((write l state).recover fun e => match e with
    | .storage .stale => conflicted l
    | e => throw e) := by
  refine (write_reports l state).recover (fun e => ?_) fun e he => ?_
  · split
    · exact (Reports.emit _ _ _ _).bind fun _ => .throw _
    · exact .throw _
  · split
    · obtain ⟨r, hr, hn⟩ := he
      cases hr
      cases hn
    · exact .of_throw he

theorem updateState_reports (loanId state : String) (expected : Option String) :
    Reports Error.IsUnavailable (updateState loanId state expected) := by
  refine (giveWay_reports loanId).bind fun _ => .call (by decide) ((require_reports loanId false).bind fun l => ?_)
  have moved : Reports Error.IsUnavailable (do
      let moved ← guarded "update_state" <| (write l state).recover fun e => match e with
        | .storage .stale => conflicted l
        | e => throw e
      emit .debug "services.ledger" "loan_state_updated" [
        ("loan_id", .text loanId), ("from_state", .text l.state), ("to_state", .text state)]
      pure (some moved)) :=
    (Reports.guarded_of_statements (written_reports l state)).bind fun _ =>
      (Reports.emit _ _ _ _).bind fun _ => .pure _
  dsimp only
  split
  · exact (Reports.throw _).bind fun _ => moved
  · exact moved

/-! ## Opening -/

def adding (l : Loan) : Work Unit := savepoint (add l) (throw (.failure (.loanAlreadyExists l.loanId)))

/-- No loan is found, its row is added, and the storage fails a statement of that. -/
def FailsAdding (l : Loan) (d : Desk) : Prop :=
  ∃ d₁ e d₂, get l.loanId false d = .ok none d₁ ∧ adding l d₁ = .error e d₂ ∧
  d₂.outages ≠ d₁.outages

theorem adding_reports (l : Loan) : Reports Error.IsOutage (adding l) :=
  .savepoint (fun _ => id) not_isOutage_conflict ((Reports.change _).bind fun _ => .know _) (.throw _)

section Opening

variable {loanId founderId actor : String} {x : Workflow.Definition} {l : Loan}

/-- What follows when the row of a new loan is there. -/
theorem opened_reports (loanId founderId : String) (x : Workflow.Definition) (actor : String) :
    Reports Error.IsUnavailable (do
      let _ ← AuditLog.append loanId (openingRecord founderId actor x (← now))
      emit .info "services.ledger" "loan_opened" [
        ("loan_id", .text loanId),
        ("founder_id", .text founderId),
        ("initial_state", .text x.initialState),
        ("definition", .text x.label)]
      pure (initial loanId founderId x)) :=
  Reports.now.bind fun _ => (AuditLog.append_reports _ _).bind fun _ => (Reports.emit _ _ _ _).bind fun _ => .pure _

/-- A loan is not opened when the storage fails a statement. -/
theorem open_ok_outages (h : open_ loanId founderId x actor d = .ok l d') : d'.outages = d.outages := by
  obtain ⟨found, d₁, hg, h₁⟩ := Work.bind_ok h
  have got := (get_reports loanId false).ok hg
  cases found with
  | some _ =>
    obtain ⟨_, _, ht, -⟩ := Work.bind_ok h₁
    cases ht
  | none =>
    obtain ⟨_, d₂, ha, h₂⟩ := Work.bind_ok h₁
    have added := (adding_reports (initial loanId founderId x)).ok ha
    exact ((opened_reports loanId founderId x actor).ok h₂).trans (added.trans got)

/-- When the storage fails a statement while a loan is opened, the caller is told that the ledger is unavailable, except
that an outage while the row is added is passed on as it is. -/
theorem open_error_outages (h : open_ loanId founderId x actor d = .error e d') (hd : d'.outages ≠ d.outages) :
    (FailsAdding (initial loanId founderId x) d ∧ e.IsOutage) ∨
      (¬ FailsAdding (initial loanId founderId x) d ∧ e.IsUnavailable) := by
  rcases Work.bind_error h with hg | ⟨found, d₁, hg, h₁⟩
  · refine .inr ⟨?_, ((get_reports loanId false).error hg).resolve_left fun hs => by omega⟩
    rintro ⟨d₁, _, _, hn, -⟩
    cases hg.symm.trans hn
  have got := (get_reports loanId false).ok hg
  cases found with
  | some _ =>
    rcases Work.bind_error h₁ with ht | ⟨_, _, ht, -⟩
    · cases ht
      omega
    · cases ht
  | none =>
    rcases Work.bind_error h₁ with ha | ⟨_, d₂, ha, h₂⟩
    · have struck : d'.outages ≠ d₁.outages := got ▸ hd
      exact .inl ⟨⟨d₁, e, d', hg, ha, struck⟩,
        ((adding_reports (initial loanId founderId x)).error ha).resolve_left fun hs => by omega⟩
    · have added := (adding_reports (initial loanId founderId x)).ok ha
      refine .inr ⟨?_, ((opened_reports loanId founderId x actor).error h₂).resolve_left fun hs => by omega⟩
      rintro ⟨d₁', _, _, hn, ha', -⟩
      cases hg.symm.trans hn
      cases (show adding _ d₁ = .ok _ d₂ from ha).symm.trans ha'

theorem open_reports (loanId founderId : String) (x : Workflow.Definition) (actor : String) :
    Reports Error.TellsOutage (open_ loanId founderId x actor) where
  ok := open_ok_outages
  error h := Decidable.or_iff_not_imp_left.mpr fun hd => (open_error_outages h hd).imp And.right And.right

end Opening

end Loans

/-! ## Disbursements -/

namespace Disbursements

theorem find_reports (loanId : String) (kind : Tranche) : Reports Error.IsUnavailable (find loanId kind) := by
  refine .call (by decide) (.guarded_of_statements ((Reports.query _).bind fun found => ?_))
  cases found with
  | none => exact (Reports.pure ()).bind fun _ => .pure _
  | some d => exact (Reports.know _).bind fun _ => .pure _

theorem get_reports (loanId id : String) : Reports Error.IsUnavailable (get loanId id) := by
  refine (Reports.guarded_of_statements (.query _)).bind fun found => ?_
  cases found with
  | some d => exact Reports.session.bind fun s => .pure _
  | none => exact .throw _

theorem add_reports (x : Disbursement) : Reports Error.IsOutage (add x) := (Reports.change _).bind fun _ => .know _

theorem submit_reports (loanId : String) (kind : Tranche) : Reports Error.IsUnavailable (submit loanId kind) := by
  refine (find_reports loanId kind).bind fun found => ?_
  cases found with
  | some x => exact .throw _
  | none =>
    refine Reports.freshId.bind fun id => Reports.now.bind fun t => .bind (.guarded ?_) fun _ => .pure _
    refine .savepoint_tells ((add_reports _).up fun _ => .inl)
      (((find_reports loanId kind).up fun _ => .inr).bind fun winner => ?_)
    cases winner <;> exact .throw _

theorem existing_reports (loanId : String) (f : Failure) : Reports Error.IsUnavailable (existing loanId f) :=
  (Reports.emit _ _ _ _).bind fun _ => (get_reports _ _).bind fun _ => .pure _

theorem request_reports (loanId : String) (kind : Tranche) : Reports Error.IsUnavailable (request loanId kind) := by
  refine .call (by decide) ((submit_reports loanId kind).attempt_bind (fun r => ?_) fun e he => ?_)
  · rcases r with e | x
    · cases e with
      | failure f => exact .ite ((existing_reports loanId f).bind fun _ => .pure _) (.throw _)
      | _ => exact .throw _
    · exact (Reports.emit _ _ _ _).bind fun _ => .pure _
  · obtain ⟨operation, rfl⟩ := he
    exact .of_throw ⟨operation, rfl⟩

theorem markPaid_reports (loanId id actor : String) : Reports Error.IsUnavailable (markPaid loanId id actor) := by
  refine (get_reports loanId id).bind fun x => .ite ((Reports.emit _ _ _ _).bind fun _ => .pure _) ?_
  have paid (t : Calendar.Timestamp) : Reports Error.IsOutage (pay x t) :=
    (Reports.change _).bind fun _ => (Reports.know _).bind fun _ => .pure _
  exact Reports.now.bind fun t => (Reports.guarded_of_statements (paid t)).bind fun _ =>
    (AuditLog.append_reports _ _).bind fun _ => (Reports.emit _ _ _ _).bind fun _ => .pure _

end Disbursements

end LoanLedger.Ledger
