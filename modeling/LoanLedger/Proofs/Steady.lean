import LoanLedger.Engine.Handle
import LoanLedger.Proofs.Statement

/-!
# Actions leave loans alone

* `Desk.SameLoans d d'` : the session has the same rows of loans, and knows the same copies of them;
* `Steady x` : whatever comes of the work, so it is; `Steady.bind`, `Steady.savepoint`, … : composed work inherits it;
* `AuditLog.append_steady`, `Disbursements.request_steady`, `actions_steady` : so it is when an entry is recorded,
  when a tranche is requested, and when the actions of a transition are done.
-/

namespace LoanLedger.Ledger

variable {α β : Type} {x y : Work α} {f : α → Work β} {a : α} {e : Error} {d d' : Desk}

/-- The session has the same rows of loans, and knows the same copies of them. -/
structure Desk.SameLoans (d d' : Desk) : Prop where
  rows : d'.session.tables.loans = d.session.tables.loans
  copies : d'.session.known.loans = d.session.known.loans

namespace Desk.SameLoans

theorem refl (d : Desk) : d.SameLoans d := ⟨rfl, rfl⟩

theorem trans {d₁ d₂ d₃ : Desk} (h : d₁.SameLoans d₂) (h' : d₂.SameLoans d₃) : d₁.SameLoans d₃ :=
  ⟨h'.rows.trans h.rows, h'.copies.trans h.copies⟩

theorem of_session (h : d'.session = d.session) : d.SameLoans d' := by
  exact ⟨congrArg (·.tables.loans) h, congrArg (·.known.loans) h⟩

end Desk.SameLoans

/-- Whatever comes of the work, the session has the same loans and knows the same copies of them. -/
def Steady (x : Work α) : Prop := Kept Desk.SameLoans α x

namespace Steady

/-! ## Composed work -/

theorem ok (h : Steady x) (hx : x d = .ok a d') : d.SameLoans d' := Kept.ok h hx

theorem error (h : Steady x) (hx : x d = .error e d') : d.SameLoans d' := Kept.error h hx

theorem bind (hx : Steady x) (hf : ∀ a, Steady (f a)) : Steady (x >>= f) := by
  refine Kept.intro (fun d b d' h => ?_) (fun d e d' h => ?_)
  · obtain ⟨a, d₁, h₁, h₂⟩ := Work.bind_ok h
    exact (hx.ok h₁).trans ((hf a).ok h₂)
  · rcases Work.bind_error h with h | ⟨a, d₁, h₁, h₂⟩
    · exact hx.error h
    · exact (hx.ok h₁).trans ((hf a).error h₂)

theorem recover {handler : Error → Work α} (hx : Steady x) (hh : ∀ e, Steady (handler e)) :
    Steady (x.recover handler) := by
  refine Kept.intro (fun d a d' h => ?_) (fun d e d' h => ?_)
  · rcases Work.recover_ok h with h | ⟨e, d₁, h₁, h₂⟩
    · exact hx.ok h
    · exact (hx.error h₁).trans ((hh e).ok h₂)
  · obtain ⟨e₁, d₁, h₁, h₂⟩ := Work.recover_error h
    exact (hx.error h₁).trans ((hh e₁).error h₂)

theorem attempt (hx : Steady x) : Steady x.attempt := Kept.attempt hx

theorem of_session (h : ∀ d, (x.desk d).session = d.session) : Steady x := fun d => .of_session (h d)

theorem pure (a : α) : Steady (pure a) := of_session fun _ => rfl

theorem throw (e : Error) : Steady (throw e : Work α) := of_session fun _ => rfl

theorem ofExcept (r : Except Error α) : Steady (Work.ofExcept r) := by
  cases r with
  | ok a => exact .pure a
  | error e => exact .throw e

theorem session : Steady session := of_session fun _ => rfl

theorem freshId : Steady freshId := of_session fun _ => rfl

theorem now : Steady now := bind (of_session fun _ => rfl) fun _ => .ofExcept _

theorem utc (t : Calendar.Timestamp) : Steady (utc t) := by
  unfold Ledger.utc
  split
  · exact .throw _
  · split
    · exact .pure _
    · exact .throw _

theorem checkPasses : Steady checkPasses := by
  refine of_session fun d => ?_
  unfold Ledger.checkPasses
  rw [Work.desk_of_ok (Work.modifyGet_run _ d)]
  split <;> rfl

theorem emit (l : Log.Level) (s m : String) (fs : List (String × Value)) : Steady (emit l s m fs) := by
  refine of_session fun d => ?_
  obtain ⟨log, hr⟩ := emit_run l s m fs d
  rw [Work.desk_of_ok hr]

theorem call {p : Point} {missed : α} (hx : Steady x) : Steady (call p missed x) := by
  refine bind (of_session fun _ => rfl) fun v => ?_
  cases v with
  | done => exact hx
  | missed => exact .pure missed
  | failed e => exact .throw e

theorem guarded {operation : String} (hx : Steady x) : Steady (guarded operation x) := by
  refine hx.recover fun e => ?_
  split
  · exact (emit _ _ _ _).bind fun _ => .throw _
  · exact .throw _

theorem statement : Steady statement := by
  refine session.bind fun s => ?_
  dsimp only
  split
  · exact bind (.throw _) fun _ => .call (.pure ())
  · exact .call (.pure ())

theorem query (g : Tables → α) : Steady (query g) :=
  statement.bind fun _ => session.bind fun _ => .pure _

/-- A change that leaves the rows of loans alone. -/
theorem change {g : Tables → Except Error Tables} (hg : ∀ t t', g t = .ok t' → t'.loans = t.loans) :
    Steady (change g) := by
  have set : Steady (Ledger.session >>= fun s => Work.ofExcept (g s.tables) >>= setTables) := by
    intro d
    rw [Work.desk_bind_of_ok (Work.session_run d)]
    cases ht : g d.session.tables with
    | error e => exact .refl d
    | ok t => exact ⟨hg _ _ ht, rfl⟩
  refine (statement.bind fun _ => set).recover fun e => ?_
  exact bind (fun d => ⟨rfl, rfl⟩) fun _ => .throw e

theorem know {k : Known → Known} (hk : ∀ known, (k known).loans = known.loans) : Steady (know k) :=
  fun d => ⟨rfl, hk d.session.known⟩

/-- What is taken back is the session from before. -/
theorem savepoint (hx : Steady x) (hy : Steady y) : Steady (savepoint x y) := by
  intro d
  unfold Ledger.savepoint
  cases h : Ledger.statement d with
  | error e d₁ =>
    rw [Work.desk_bind_of_error h]
    exact statement.error h
  | ok _ d₁ =>
    rw [Work.desk_bind_of_ok h, Work.desk_bind_of_ok (Work.session_run d₁)]
    refine (statement.ok h).trans ?_
    have inner : Steady (do let a ← x; Ledger.statement; Pure.pure a) :=
      hx.bind fun a => statement.bind fun _ => .pure a
    cases h : (do let a ← x; Ledger.statement; Pure.pure a : Work α) d₁ with
    | ok a d₂ =>
      rw [Work.desk_of_ok (Work.recover_of_ok h)]
      exact inner.ok h
    | error e d₂ =>
      rw [Work.desk_recover_of_error h]
      split
      · have resumed : d₁.SameLoans { d₂ with session := d₁.session } := .of_session rfl
        exact resumed.trans (hy { d₂ with session := d₁.session })
      · exact inner.error h

end Steady

/-! ## Entries -/

namespace Sequence

theorem noteAllocated_steady (name : String) (value : Int) : Steady (noteAllocated name value) := .emit _ _ _ _

theorem locked_steady (name : String) : Steady (locked name) := (Steady.query _).call

theorem raise_steady (c : Counter) : Steady (raise c) := by
  refine (Steady.change fun t t' ht => ?_).bind fun _ => (noteAllocated_steady _ _).bind fun _ => .pure _
  split at ht <;> cases ht
  rfl

theorem afterRace_steady (name : String) : Steady (afterRace name) := by
  refine (Steady.emit _ _ _ _).bind fun _ => (locked_steady name).bind fun c => ?_
  cases c with
  | some c => exact raise_steady c
  | none => exact .throw _

theorem next_steady (name : String) : Steady (next name) := by
  refine (locked_steady name).bind fun c => ?_
  cases c with
  | some c => exact raise_steady c
  | none =>
    have counted : Steady (insert (·.addCounter? ⟨name, 1⟩)) := by
      refine .change fun t t' ht => ?_
      split at ht
      · next hadd =>
        cases ht
        obtain ⟨-, rfl⟩ := Tables.addCounter?_eq_some.mp hadd
        rfl
      · cases ht
    refine (Steady.savepoint (counted.bind fun _ => .pure true) (.pure false)).bind fun isFirst => ?_
    cases isFirst with
    | true => exact (noteAllocated_steady _ _).bind fun _ => .pure 1
    | false => exact afterRace_steady name

end Sequence

namespace AuditLog

theorem findTransition_steady (key : String) : Steady (findTransition key) :=
  .call (.guarded (((Steady.query _).bind fun _ => Steady.session.bind fun _ => .pure _).bind fun _ => .pure _))

theorem store_steady (x : Entry) : Steady (store x) := by
  refine (Steady.change fun t t' ht => ?_).bind fun _ => .know fun _ => rfl
  split at ht
  · cases ht
  · split at ht
    · cases ht
    · split at ht
      · next hadd =>
        cases ht
        obtain ⟨-, rfl⟩ := Tables.addEntry?_eq_some.mp hadd
        rfl
      · cases ht

theorem next_steady (loanId : String) (r : AuditRecord) : Steady (next loanId r) := by
  refine (Sequence.next_steady _).bind fun seq => (Steady.query _).bind fun last => (Steady.utc _).bind fun ts => ?_
  exact Steady.now.bind fun t => (Steady.utc t).bind fun recordedAt => (Steady.ofExcept _).bind fun x =>
    (store_steady x).bind fun _ => .pure x

theorem afterConflict_steady (loanId key : String) : Steady (afterConflict loanId key) := by
  refine (findTransition_steady key).bind fun found => ?_
  cases found <;> exact .throw _

theorem append_steady (loanId : String) (r : AuditRecord) : Steady (append loanId r) := by
  refine .call (.bind (.guarded ?_) fun x => (Steady.emit _ _ _ _).bind fun _ => .pure _)
  cases r.key with
  | none => exact next_steady loanId r
  | some key => exact .savepoint (next_steady loanId r) (afterConflict_steady loanId key)

end AuditLog

/-! ## Requests -/

namespace Disbursements

theorem find_steady (loanId : String) (kind : Tranche) : Steady (find loanId kind) := by
  refine .call (.guarded ((Steady.query _).bind fun found => ?_))
  cases found with
  | none => exact (Steady.pure ()).bind fun _ => .pure _
  | some x => exact (Steady.know (k := forget x.id) fun _ => rfl).bind fun _ => .pure _

theorem get_steady (loanId id : String) : Steady (get loanId id) := by
  refine (Steady.guarded (.query _)).bind fun found => ?_
  cases found with
  | some x => exact Steady.session.bind fun _ => .pure _
  | none => exact .throw _

theorem add_steady (x : Disbursement) : Steady (add x) := by
  refine (Steady.change fun t t' ht => ?_).bind fun _ => .know fun _ => rfl
  split at ht
  · cases ht
  · split at ht
    · next hadd =>
      cases ht
      obtain ⟨-, rfl⟩ := Tables.addDisbursement?_eq_some.mp hadd
      rfl
    · cases ht

theorem submit_steady (loanId : String) (kind : Tranche) : Steady (submit loanId kind) := by
  refine (find_steady loanId kind).bind fun found => ?_
  cases found with
  | some x => exact .throw _
  | none =>
    refine Steady.freshId.bind fun id => Steady.now.bind fun t => ?_
    refine .bind (.guarded (.savepoint (add_steady _) ?_)) fun _ => .pure _
    refine (find_steady loanId kind).bind fun found => ?_
    cases found <;> exact .throw _

theorem existing_steady (loanId : String) (f : Failure) : Steady (existing loanId f) :=
  (Steady.emit _ _ _ _).bind fun _ => (get_steady _ _).bind fun _ => .pure _

theorem request_steady (loanId : String) (kind : Tranche) : Steady (request loanId kind) := by
  refine .call ((submit_steady loanId kind).attempt.bind fun r => ?_)
  cases r with
  | ok x => exact (Steady.emit _ _ _ _).bind fun _ => .pure _
  | error e =>
    cases e with
    | failure f =>
      dsimp only
      split
      · exact (existing_steady loanId f).bind fun _ => .pure _
      · exact .throw _
    | _ => exact .throw _

end Disbursements

end LoanLedger.Ledger

/-! ## Actions -/

namespace LoanLedger.Engine

open Ledger Workflow

theorem request_steady (task : Task) (kind : Tranche) : Steady (request task kind) := by
  refine ((Disbursements.request_steady _ kind).recover fun e => .throw _).bind fun answer => ?_
  cases answer with
  | none => exact .throw _
  | some answer =>
    refine (Steady.know (k := Disbursements.forget answer.record.id) fun _ => rfl).bind fun _ => ?_
    dsimp only
    split
    · exact (AuditLog.append_steady _ _).bind fun _ => .pure _
    · exact .pure _

theorem dispatch_steady (h : Dispatcher) (task : Task) : Steady (h.dispatch task) := by
  unfold Dispatcher.dispatch
  cases h.tranche? task.action.kind with
  | some kind => exact (request_steady task kind).bind fun _ => (Steady.emit _ _ _ _).bind fun _ => .pure _
  | none =>
    have unknown : Steady (recordUnknown task) :=
      (Steady.emit _ _ _ _).bind fun _ => (AuditLog.append_steady _ _).bind fun _ => .pure _
    exact unknown.bind fun _ => (Steady.emit _ _ _ _).bind fun _ => .pure _

theorem checkCancelled_steady (e : Event) (stage : String) : Steady (checkCancelled e stage) := by
  refine .call (Steady.checkPasses.bind fun passes => ?_)
  cases passes with
  | true => exact .pure ()
  | false => exact .throw _

/-- The actions of a transition leave loans alone. -/
theorem actions_steady (g : Engine) (e : Event) (fromState : String) (t : Transition) (actions : List Action) :
    Steady (actions.mapM (g.doAction e fromState t)) := by
  induction actions with
  | nil =>
    rw [List.mapM_nil]
    exact .pure _
  | cons a actions ih =>
    rw [List.mapM_cons]
    have done : Steady (g.doAction e fromState t a) := (checkCancelled_steady e _).bind fun _ => dispatch_steady _ _
    exact done.bind fun _ => ih.bind fun _ => .pure _

end LoanLedger.Engine
