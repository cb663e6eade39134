import LoanLedger.Proofs.Acting
import LoanLedger.Proofs.Evidence
import LoanLedger.Proofs.Spent
import LoanLedger.Proofs.Usable

/-!
# Lost races

A row can be there although the lookup before its insert did not find it.

* `Idles x d r` : the work ends with `r` at the desk `d`, and its session has the rows from before and can go on;
* `Disbursements.insertion`, `Loans.opening` : requests and openings behind their lookup;
* `Tables.HasRequest t x` : both unique keys of a request lead to its row;
* `lost_inserts_end_like_repeats` : an insert of a row that is there ends in the same way, found or not; an id that is
  taken by another request is told apart from it.
-/

namespace LoanLedger.Ledger

variable {α : Type} {x : Work α} {a : α} {e : Error} {r : Except Error α} {d d' d₁ d₂ : Desk} {loanId : String}

/-- The work ends as given; its session has the rows from before, and can go on. -/
structure Idles (x : Work α) (d : Desk) (r : Except Error α) : Prop where
  answer : x.answer d = r
  tables : (x.desk d).session.tables = d.session.tables
  sound : (x.desk d).session.isBroken = false

theorem Idles.of_ok (h : x d = .ok a d') (ht : d'.session.tables = d.session.tables)
    (hs : d'.session.isBroken = false) : Idles x d (.ok a) :=
  ⟨Work.answer_of_ok h, by rw [Work.desk_of_ok h, ht], by rw [Work.desk_of_ok h, hs]⟩

theorem Idles.of_error (h : x d = .error e d') (ht : d'.session.tables = d.session.tables)
    (hs : d'.session.isBroken = false) : Idles x d (.error e) :=
  ⟨Work.answer_of_error h, by rw [Work.desk_of_error h, ht], by rw [Work.desk_of_error h, hs]⟩

/-! ## Requests -/

/-- Both unique keys of a request lead to its row. -/
structure Tables.HasRequest (t : Tables) (x : Disbursement) : Prop where
  byTranche : t.disbursementFor? x.loanId x.kind = some x
  byId : t.disbursement? x.loanId x.id = some x

namespace Disbursements

variable {kind : Tranche} {x : Disbursement}

instance : Holds Unhindered (insertion loanId kind) := .bind inferInstance fun _ => drawn_holds fun _ => inferInstance

/-- The request was made meanwhile. -/
theorem insertion_exists (hd : d.IsReady) (ht : d.clock.IsTimely)
    (hfor : d.session.tables.disbursementFor? loanId kind = some x) :
    insertion loanId kind d = .error (alreadyExists x) (forgetting (drawing d) x.id) := by
  have ready : (drawing d).IsReady := { hd with }
  refine insertion_refused hd ht (.inr (by rw [hfor]; rfl)) ?_
  exact (Work.recover_of_error ((Work.bind_of_ok (find_some ready hfor)).trans rfl)).trans rfl

/-- A request that the session has forgotten is known as its row says. -/
theorem recalled_forget (k : Known) (x : Disbursement) : recalled (forget x.id k) x = x := by
  have unknown : (forget x.id k).disbursements.find? (·.id = x.id) = none := by
    simp [forget, List.find?_filter]
  rw [recalled, unknown]
  rfl

/-- A lookup that finds nothing leads to the insert, and so does one that is lost. -/
theorem submit_unfound (hd : d.IsReady) (hfor : d.session.tables.disbursementFor? loanId kind = none) :
    ∃ d', submit loanId kind d = insertion loanId kind d' ∧ d.Outlived d' :=
  ⟨d, submit_unseen (find_none hd hfor), .refl hd.faults⟩

theorem submit_lost (hd : d.IsCalm) (loanId : String) (kind : Tranche) :
    ∃ d', submit loanId kind (d.losing .findDisbursement) = insertion loanId kind d' ∧ d.Outlived d' := by
  have lost : ∃ d', find loanId kind (d.losing .findDisbursement) = .ok none d' ∧ d.Outlived d' :=
    call_lost hd _ none _
  obtain ⟨d', hf, ho⟩ := lost
  exact ⟨d', submit_unseen hf, ho⟩

/-- A request that cannot be made because there is one is answered with that one. -/
theorem request_exists (hd : d.IsReady) (hx : d.session.tables.HasRequest x)
    (hc : ∀ y : Work (Option Answer), call .createDisbursement none y d' = y d')
    (hs : submit x.loanId x.kind d' = .error (alreadyExists x) d₁) (ho : (forgetting d x.id).Outlived d₁) :
    ∃ d₂, request x.loanId x.kind d' = .ok (some ⟨x, false⟩) d₂ ∧
      d₂.session = (forgetting d x.id).session := by
  obtain ⟨d₀, he, -, hs₀, -⟩ := existing_calm (x := x) ((forgetting_onward d x.id).isReady hd) hx.byId
  rw [show recalled (forgetting d x.id).session.known x = x from recalled_forget _ x] at he
  obtain ⟨d₂, he, o₂⟩ := Unhindered.ok Holds.holds ho he
  refine ⟨d₂, (hc _).trans ?_, o₂.session.trans hs₀⟩
  exact (Work.bind_of_ok (Work.attempt_of_error hs)).trans ((Work.bind_of_ok he).trans rfl)

/-- A request whose id was given to another one fails. -/
theorem request_idTaken (hd : d.IsReady) (ht : d.clock.IsTimely)
    (hfor : d.session.tables.disbursementFor? loanId kind = none)
    (hid : ∃ y ∈ d.session.tables.disbursements, y.id = d.ids.next.1)
    (hc : ∀ y : Work (Option Answer), call .createDisbursement none y d' = y d')
    (hs : ∃ d₁, submit loanId kind d' = insertion loanId kind d₁ ∧ d.Outlived d₁) :
    ∃ d₂, request loanId kind d' = .error (.failure (.ledgerUnavailable "create_disbursement")) d₂ ∧
      d₂.session = d.session := by
  obtain ⟨d₁, hs, o₁⟩ := hs
  obtain ⟨d₀, hi, hs₀, -⟩ := insertion_idTaken hd ht hfor hid
  obtain ⟨d₂, hi, o₂⟩ := Unhindered.error Holds.holds o₁ hi
  refine ⟨d₂, (hc _).trans ?_, o₂.session.trans hs₀⟩
  exact (Work.bind_of_ok (Work.attempt_of_error (hs.trans hi))).trans rfl

theorem request_repeats (hd : d.IsReady) (ht : d.clock.IsTimely) (hx : d.session.tables.HasRequest x) :
    ∀ d' ∈ [d, d.losing .findDisbursement], Idles (request x.loanId x.kind) d' (.ok (some ⟨x, false⟩)) := by
  refine List.forall_mem_cons.mpr ⟨?_, List.forall_mem_singleton.mpr ?_⟩
  · obtain ⟨d₂, hr, hs⟩ := request_exists hd hx (call_calm hd.toIsCalm _ none) (submit_again hd hx.byTranche)
      (.refl ((forgetting_onward d x.id).isReady hd).faults)
    exact .of_ok hr (by rw [hs]; rfl) (by rw [hs]; exact hd.sound)
  · -- the session goes on from before the insert, with an id less
    obtain ⟨d₁, hs, o₁⟩ := submit_lost hd.toIsCalm x.loanId x.kind
    obtain ⟨d₂, hi, o₂⟩ := Unhindered.error Holds.holds o₁ (insertion_exists hd ht hx.byTranche)
    have ready : (drawing d).IsReady := { hd with }
    obtain ⟨d₃, hr, hs⟩ := request_exists ready hx (call_losing (by decide) none) (hs.trans hi) o₂
    exact .of_ok hr (by rw [hs]; rfl) (by rw [hs]; exact hd.sound)

theorem request_refused (hd : d.IsReady) (ht : d.clock.IsTimely)
    (hfor : d.session.tables.disbursementFor? loanId kind = none)
    (hid : ∃ y ∈ d.session.tables.disbursements, y.id = d.ids.next.1) :
    ∀ d' ∈ [d, d.losing .findDisbursement],
      Idles (request loanId kind) d' (.error (.failure (.ledgerUnavailable "create_disbursement"))) := by
  refine List.forall_mem_cons.mpr ⟨?_, List.forall_mem_singleton.mpr ?_⟩
  · obtain ⟨d₂, hr, hs⟩ := request_idTaken hd ht hfor hid (call_calm hd.toIsCalm _ none) (submit_unfound hd hfor)
    exact .of_error hr (by rw [hs]) (by rw [hs]; exact hd.sound)
  · obtain ⟨d₂, hr, hs⟩ := request_idTaken hd ht hfor hid (call_losing (by decide) none)
      (submit_lost hd.toIsCalm loanId kind)
    exact .of_error hr (by rw [hs]; rfl) (by rw [hs]; exact hd.sound)

end Disbursements

/-! ## Openings -/

namespace Loans

variable {founderId actor : String} {definition : Workflow.Definition} {row : Loan}

def opening (loanId founderId : String) (definition : Workflow.Definition) (actor : String) : Work Loan := do
  let l := initial loanId founderId definition
  savepoint (add l) (throw (.failure (.loanAlreadyExists loanId)))
  let _ ← AuditLog.append loanId (openingRecord founderId actor definition (← now))
  emit .info "services.ledger" "loan_opened" [
    ("loan_id", .text loanId),
    ("founder_id", .text founderId),
    ("initial_state", .text definition.initialState),
    ("definition", .text definition.label)]
  pure l

instance : Holds Unhindered (opening loanId founderId definition actor) := by
  unfold opening
  infer_instance

theorem open_unseen (h : get loanId false d = .ok none d₁) :
    open_ loanId founderId definition actor d = opening loanId founderId definition actor d₁ :=
  (Work.bind_of_ok h).trans rfl

theorem opening_exists (founderId actor : String) (hd : d.IsReady) (hl : d.session.tables.loan? loanId = some row)
    (hv : Column.fitsInteger definition.version = true) :
    opening loanId founderId definition actor d = .error (.failure (.loanAlreadyExists loanId)) d := by
  have taken : d.session.tables.addLoan? (initial loanId founderId definition) = none :=
    if_pos (by rw [show (initial loanId founderId definition).loanId = loanId from rfl, hl]; rfl)
  have refused : add (initial loanId founderId definition) d = .error (.storage .conflict) d.broken := by
    refine Work.bind_of_error (change_refused hd ?_)
    rw [show (initial loanId founderId definition).definitionVersion = definition.version from rfl, hv, taken]
    rfl
  exact Work.bind_of_error ((savepoint_taken hd refused).trans rfl)

theorem open_lost (founderId actor : String) (hd : d.IsReady) (hl : d.session.tables.loan? loanId = some row)
    (hv : Column.fitsInteger definition.version = true) :
    ∃ d', open_ loanId founderId definition actor (d.losing .getLoan) =
      .error (.failure (.loanAlreadyExists loanId)) d' ∧ d'.session = d.session := by
  have lost : ∃ d₁, get loanId false (d.losing .getLoan) = .ok none d₁ ∧ d.Outlived d₁ :=
    call_lost hd.toIsCalm _ none _
  obtain ⟨d₁, hg, o₁⟩ := lost
  obtain ⟨d', ho, o'⟩ := Unhindered.error Holds.holds o₁ (opening_exists founderId actor hd hl hv)
  exact ⟨d', (open_unseen hg).trans ho, o'.session⟩

theorem open_repeats (founderId actor : String) (hd : d.IsReady) (hl : d.session.tables.loan? loanId = some row)
    (hv : Column.fitsInteger definition.version = true) :
    ∀ d' ∈ [d, d.losing .getLoan],
      Idles (open_ loanId founderId definition actor) d' (.error (.failure (.loanAlreadyExists loanId))) := by
  refine List.forall_mem_cons.mpr ⟨?_, List.forall_mem_singleton.mpr ?_⟩
  · exact .of_error (open_again founderId actor definition hd hl) rfl hd.sound
  · obtain ⟨d₂, ho, hs⟩ := open_lost founderId actor hd hl hv
    exact .of_error ho (by rw [hs]; rfl) (by rw [hs]; exact hd.sound)

end Loans

/-! ## Both -/

/-- Where the row is there already, an insert ends in the same way whether its lookup finds the row or is lost: the
request that there is is the answer, and the loan is not opened again. A request whose id was given to another one
fails, and is not answered with the other one. In all cases the rows of the session stay, and it can go on. -/
theorem lost_inserts_end_like_repeats (d : Desk) (hd : d.IsReady) :
    (∀ x : Disbursement, d.clock.IsTimely → d.session.tables.HasRequest x →
      ∀ d' ∈ [d, d.losing .findDisbursement],
        Idles (Disbursements.request x.loanId x.kind) d' (.ok (some ⟨x, false⟩))) ∧
    (∀ (loanId : String) (kind : Tranche), d.clock.IsTimely →
      d.session.tables.disbursementFor? loanId kind = none →
      (∃ y ∈ d.session.tables.disbursements, y.id = d.ids.next.1) →
      ∀ d' ∈ [d, d.losing .findDisbursement],
        Idles (Disbursements.request loanId kind) d' (.error (.failure (.ledgerUnavailable "create_disbursement")))) ∧
    ∀ (loanId founderId actor : String) (definition : Workflow.Definition) (row : Loan),
      d.session.tables.loan? loanId = some row → Column.fitsInteger definition.version = true →
      ∀ d' ∈ [d, d.losing .getLoan],
        Idles (Loans.open_ loanId founderId definition actor) d' (.error (.failure (.loanAlreadyExists loanId))) :=
  ⟨fun _ ht hx => Disbursements.request_repeats hd ht hx,
    fun _ _ ht hfor hid => Disbursements.request_refused hd ht hfor hid,
    fun _ founderId actor _ _ hl hv => Loans.open_repeats founderId actor hd hl hv⟩

/-- A request for the filing fee of a loan, made at noon with the first id. -/
def filed : Disbursement := ⟨"disb-1", "L1", .filingFee, .pending, Clock.defaultStart, none⟩

/-- A session at noon with a loan and its request, where the first id is to be given once more. -/
def filedAtNoon : Desk :=
  { Engine.noon with session := .of ⟨[opened], [], [], [filed]⟩ }

theorem lost_inserts_end_like_repeats_at_noon :
    filedAtNoon.session.tables.HasRequest filed ∧
      Idles (Disbursements.request "L1" .filingFee) (filedAtNoon.losing .findDisbursement)
        (.ok (some ⟨filed, false⟩)) ∧
      Idles (Disbursements.request "L1" .remainingFunds) (filedAtNoon.losing .findDisbursement)
        (.error (.failure (.ledgerUnavailable "create_disbursement"))) ∧
      Idles (Loans.open_ "L1" "F1" Engine.still.definition systemActor) (filedAtNoon.losing .getLoan)
        (.error (.failure (.loanAlreadyExists "L1"))) := by
  obtain ⟨repeated, refused, reopened⟩ := lost_inserts_end_like_repeats filedAtNoon ⟨⟨rfl, rfl, rfl⟩, rfl⟩
  have filed_isThere : filedAtNoon.session.tables.HasRequest filed := ⟨rfl, rfl⟩
  exact ⟨filed_isThere, repeated filed Engine.noon_isTimely filed_isThere _ (by simp),
    refused "L1" .remainingFunds Engine.noon_isTimely rfl ⟨filed, by simp [filedAtNoon, Session.of],
      rfl⟩ _ (by simp),
    reopened "L1" "F1" systemActor Engine.still.definition opened rfl rfl _ (by simp)⟩

/-- Under a definition whose version does not fit its column, a lost lookup makes a difference. -/
theorem lost_lookup_tooLarge :
    (Loans.open_ "L1" "F1" Engine.vast.definition systemActor).answer filedAtNoon =
        .error (.failure (.loanAlreadyExists "L1")) ∧
      (Loans.open_ "L1" "F1" Engine.vast.definition systemActor).answer (filedAtNoon.losing .getLoan) =
        .error .tooLarge :=
  ⟨rfl, rfl⟩

end LoanLedger.Ledger
