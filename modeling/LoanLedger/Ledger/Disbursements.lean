import LoanLedger.Ledger.AuditLog

/-!
# Disbursements

* `Disbursements.submit loanId kind` : a new request; a loan has at most one for each tranche;
* `Disbursements.request loanId kind` : the request that there is, or else a new one;
* `Disbursements.markPaid loanId id actor` : marks a request as paid and records that, once;
* `Disbursements.find`, `Disbursements.get`, `Disbursements.list` : the requests of a loan.
-/

namespace LoanLedger.Ledger.Disbursements

def remember (d : Disbursement) (k : Known) : Known :=
  { k with disbursements := d :: k.disbursements.filter (·.id ≠ d.id) }

/-- Forgets a request, so that its row counts. -/
def forget (id : String) (k : Known) : Known :=
  { k with disbursements := k.disbursements.filter (·.id ≠ id) }

/-- The request as the session knows it. -/
def recalled (k : Known) (d : Disbursement) : Disbursement :=
  (k.disbursements.find? (·.id = d.id)).getD d

def find (loanId : String) (kind : Tranche) : Work (Option Disbursement) :=
  call .findDisbursement none <| guarded "find_disbursement" do
    let found ← query (·.disbursementFor? loanId kind)
    match found with
    | some d => know (forget d.id)
    | none => pure ()
    pure found

def get (loanId id : String) : Work Disbursement := do
  match ← guarded "get_disbursement" (query (·.disbursement? loanId id)) with
  | some d => pure (recalled (← session).known d)
  | none => throw (.failure (.disbursementNotFound loanId id))

def list (loanId : String) : Work (List Disbursement) := do
  let ds ← query (·.disbursementsOf loanId)
  pure (ds.map (recalled (← session).known))

/-! ## Requesting -/

/-- Adds the row of a request. -/
def add (d : Disbursement) : Work Unit := do
  change fun t => match d.stored? with
    | .error _ => .error (.storage .unstorable)
    | .ok row => match t.addDisbursement? row with
      | some t => .ok t
      | none => .error (.storage .conflict)
  know (remember d)

/-- A loan has a request for a tranche already. -/
def alreadyExists (d : Disbursement) : Error :=
  .failure (.disbursementAlreadyExists d.loanId d.kind.word d.id)

/-- Makes a new request for a tranche of a loan. -/
def submit (loanId : String) (kind : Tranche) : Work Disbursement := do
  match ← find loanId kind with
  | some d => throw (alreadyExists d)
  | none => do
    let id ← freshId
    let d : Disbursement := ⟨id, loanId, kind, .pending, ← now, none⟩
    guarded "create_disbursement" <| savepoint (add d) do
      match ← find loanId kind with
      | some winner => throw (alreadyExists winner)
      | none => throw (.storage .conflict)
    pure d

structure Answer where
  record : Disbursement
  created : Bool

def noteRequest (message loanId : String) (kind id : Value) : Work Unit :=
  emit .info "services.disbursement" message
    [("loan_id", .text loanId), ("kind", kind), ("disbursement_id", id)]

def existing (loanId : String) (f : Failure) : Work Answer := do
  let told (name : String) : Value := (f.attributes.lookup name).getD .null
  noteRequest "disbursement_already_exists" loanId (told "kind") (told "disbursement_id")
  pure ⟨← get loanId (told "disbursement_id").label, false⟩

def request (loanId : String) (kind : Tranche) : Work (Option Answer) :=
  call .createDisbursement none do
    match ← Work.attempt (submit loanId kind) with
    | .ok d => do
      noteRequest "disbursement_created" loanId (.text d.kind.word) (.text d.id)
      pure (some ⟨d, true⟩)
    | .error (.failure f) =>
      if f.kind = .disbursementAlreadyExists then
        pure (some (← existing loanId f))
      else throw (.failure f)
    | .error e => throw e

/-! ## Paying -/

/-- What is recorded when a request is paid. -/
def paymentRecord (d : Disbursement) (actor : String) (timestamp : Calendar.Timestamp) :
    AuditRecord where
  timestamp
  actor
  event := .disbursementPaid
  details := "Disbursement " ++ d.id ++ " (" ++ d.kind.word ++ ") marked paid"
  attributes := [(.text "disbursement_id", .text d.id), (.text "kind", .text d.kind.word)]
  key := none

def notePayment (message : String) (d : Disbursement) : Work Unit :=
  emit .info "services.disbursement" message
    [("loan_id", .text d.loanId), ("disbursement_id", .text d.id)]

/-- Writes the payment into the row of a request. -/
def pay (d : Disbursement) (paidAt : Calendar.Timestamp) : Work Disbursement := do
  let paid := { d with status := .paid, paidAt := some paidAt }
  change fun t => match Column.keepTime? paidAt with
    | .error _ => .error (.storage .unstorable)
    | .ok paidAt =>
      .ok (t.changeDisbursement d.id fun row => { row with status := .paid, paidAt := some paidAt })
  know (remember paid)
  pure paid

/-- Marks a request as paid and records that; a request that is paid stays as it is. -/
def markPaid (loanId id actor : String) : Work Disbursement := do
  let d ← get loanId id
  if d.isPaid then
    notePayment "disbursement_already_paid" d
    pure d
  else
    let paidAt ← now
    let paid ← guarded "mark_paid" (pay d paidAt)
    let _ ← AuditLog.append loanId (paymentRecord d actor paidAt)
    notePayment "disbursement_paid" d
    pure paid

end LoanLedger.Ledger.Disbursements
