import LoanLedger.Proofs.Calls
import LoanLedger.Proofs.Requests

/-!
# Acting undisturbed

* `Event.IsTimely e` : the time of the event is known in UTC;
* `actions_goes` : where nothing disturbs the work, all actions of a transition are done, unless ids that they draw
  clash;
* `Loans.require_calm`, `Loans.updateState_calm` : a loan that is open is found, and moved from its state;
* `Loans.open_calm`, `Disbursements.markPaid_calm` : a loan is opened that is not open, and a request paid
  that is there.
-/

namespace LoanLedger

open Ledger Workflow

def Event.IsTimely (e : Event) : Prop := ∃ u, e.occurredAt.toUtc? = some u

namespace Engine

variable {d d' : Desk} {g : Engine} {e : Event} {n : Nat}

/-! ## Records -/

theorem requestRecord_isWritable (task : Task) (x : Disbursement) : (requestRecord task x).IsWritable := by
  simp [AuditRecord.IsWritable, requestRecord, Json.ofValue]

theorem unknownRecord_isWritable (task : Task) : (unknownRecord task).IsWritable := by
  simp [AuditRecord.IsWritable, unknownRecord, Json.ofValue]

theorem ignoredRecord_isWritable (e : Event) (state : String) : (ignoredRecord e state).IsWritable := by
  simp [AuditRecord.IsWritable, ignoredRecord, Json.ofValue]

theorem transitionRecord_isWritable (e : Event) (a b : String) : (transitionRecord e a b).IsWritable := by
  simp [AuditRecord.IsWritable, transitionRecord, Json.ofValue]

theorem requestRecord_isSound {task : Task} (x : Disbursement) (ht : task.event.IsTimely) :
    (requestRecord task x).IsSound :=
  ⟨(requestRecord_isPlain task x).isJson, requestRecord_isWritable task x, task.event.isAware, ht⟩

theorem unknownRecord_isSound {task : Task} (ht : task.event.IsTimely) : (unknownRecord task).IsSound :=
  ⟨(unknownRecord_isPlain task).isJson, unknownRecord_isWritable task, task.event.isAware, ht⟩

theorem ignoredRecord_isSound (ht : e.IsTimely) (state : String) : (ignoredRecord e state).IsSound :=
  ⟨(ignoredRecord_isPlain e state).isJson, ignoredRecord_isWritable e state, e.isAware, ht⟩

theorem transitionRecord_isSound (ht : e.IsTimely) (a b : String) : (transitionRecord e a b).IsSound :=
  ⟨transitionRecord_isJson e a b, transitionRecord_isWritable e a b, e.isAware, ht⟩

theorem paymentRecord_isSound (x : Disbursement) (actor : String) {t : Calendar.Timestamp} (ht : t.IsTimely) :
    (Disbursements.paymentRecord x actor t).IsSound :=
  ⟨(paymentRecord_isPlain x actor t).isJson,
    by simp [AuditRecord.IsWritable, Disbursements.paymentRecord, Json.ofValue], ht⟩

theorem openingRecord_isWritable (founderId actor : String) {x : Definition} (hx : Column.fitsInteger x.version = true)
    (t : Calendar.Timestamp) : (Loans.openingRecord founderId actor x t).IsWritable := by
  intro p hp
  simp only [Loans.openingRecord, List.mem_cons, List.not_mem_nil, or_false] at hp
  rcases hp with rfl | rfl | rfl | rfl
  · exact ⟨⟨_, rfl⟩, fun _ => ⟨_, rfl⟩⟩
  · exact ⟨⟨_, rfl⟩, fun _ => ⟨_, rfl⟩⟩
  · exact ⟨⟨_, rfl⟩, fun _ => ⟨_, rfl⟩⟩
  · exact ⟨⟨_, rfl⟩, fun _ => ⟨_, Json.ofValue_int_of_fits hx⟩⟩

theorem openingRecord_isSound (founderId actor : String) {x : Definition} {t : Calendar.Timestamp}
    (hx : Column.fitsInteger x.version = true) (ht : t.IsTimely) :
    (Loans.openingRecord founderId actor x t).IsSound :=
  ⟨openingRecord_isJson founderId actor x t, openingRecord_isWritable founderId actor hx t, ht⟩

/-! ## Actions -/

theorem request_answered {task : Task} {kind : Tranche} {answer : Disbursements.Answer}
    (h : Disbursements.request task.event.loanId kind d = .ok (some answer) d') : request task kind d = (do
      if answer.created then
        let _ ← AuditLog.append task.event.loanId (requestRecord task { answer.record with kind })
      pure (.requested task.action answer.record.id kind answer.created) : Work ActionResult)
        (Disbursements.forgetting d' answer.record.id) :=
  (Work.bind_of_ok (Work.recover_of_ok h)).trans (Work.bind_of_ok rfl)

theorem request_goes {task : Task} (h : d.Roomy task.event.loanId (n + 1)) (ht : task.event.IsTimely)
    (kind : Tranche) : GoesOn task.event.loanId n 1 d (request task kind d) := by
  have requested := Disbursements.request_goes h kind
  generalize hr : Disbursements.request task.event.loanId kind d = r at requested
  cases requested with
  | @ok answer d₁ drew room =>
    obtain ⟨answer, rfl⟩ := Disbursements.request_answer h.toIsCalm hr
    have onward := Disbursements.forgetting_onward d₁ answer.record.id
    have room := room.same onward.toNear (onward.isReady room.toIsReady).sound rfl
    rw [request_answered hr]
    refine .trans (drew.trans (.of_same onward rfl rfl)) (m := 0) ?_
    cases answer.created with
    | true =>
      exact (room.appended (requestRecord_isSound { answer.record with kind } ht) rfl).bind fun _ _ _ room =>
        .pure room _
    | false => exact .pure (room.mono (Nat.le_succ n)) _
  | taken hc =>
    rw [show request task kind d = _ from Work.bind_of_error (Work.recover_of_error hr)]
    exact .taken hc

theorem recordUnknown_goes {task : Task} (h : d.Roomy task.event.loanId (n + 1)) (ht : task.event.IsTimely) :
    GoesOn task.event.loanId n 0 d (recordUnknown task d) :=
  (GoesOn.emit h _ _ _ _).bind fun _ _ _ room =>
    (room.appended (unknownRecord_isSound ht) rfl).bind fun _ _ _ room => .pure room _

theorem dispatch_goes (x : Dispatcher) (task : Task) (h : d.Roomy task.event.loanId (n + 1))
    (ht : task.event.IsTimely) : GoesOn task.event.loanId n 1 d (x.dispatch task d) := by
  have noted (r : ActionResult) {d₁ : Desk} (room : d₁.Roomy task.event.loanId n) :
      GoesOn task.event.loanId n 0 d₁ ((do
        emit .debug "services.action_dispatch" "action_dispatched" [
          ("trigger", .text task.action.trigger), ("action_kind", .text task.action.kind.word),
          ("recognized", .bool r.isRecognized), ("disbursement_created", .bool r.isCreated)]
        pure r : Work ActionResult) d₁) :=
    (GoesOn.emit room _ _ _ _).bind fun _ _ _ room => .pure room r
  unfold Dispatcher.dispatch
  cases x.tranche? task.action.kind with
  | some kind => exact (request_goes h ht kind).bind fun r _ _ room => noted r room
  | none => exact .mono ((recordUnknown_goes h ht).bind fun r _ _ room => noted r room) (Nat.zero_le 1)

/-- All actions of a transition are done, unless ids that they draw clash. -/
theorem actions_goes (fromState : String) (t : Transition) {actions : List Action} (ht : e.IsTimely) :
    ∀ {d : Desk}, d.Roomy e.loanId (actions.length + n) →
      GoesOn e.loanId n actions.length d (actions.mapM (g.doAction e fromState t) d) := by
  induction actions with
  | nil =>
    intro d h
    rw [List.mapM_nil]
    exact .pure (h.mono (by simp)) _
  | cons a actions ih =>
    intro d h
    have done : GoesOn e.loanId (actions.length + n) 1 d (g.doAction e fromState t a d) := by
      rw [show g.doAction e fromState t a d = _ from checked_calm h.toIsCalm e _ _]
      exact dispatch_goes g.dispatcher ⟨e, fromState, t.to, a⟩ (h.mono (by rw [List.length_cons]; omega)) ht
    rw [List.mapM_cons, List.length_cons, Nat.add_comm]
    exact done.bind fun _ _ _ room => (ih room).bind fun _ _ _ room => .pure room _

end Engine

/-! ## Loans -/

/-- The copy of a loan that a session goes by where its row is given: the one that it knows, or else the row. -/
def Ledger.Session.copyOf (s : Session) (row : Loan) : Loan :=
  (s.known.loans.find? (·.loanId = row.loanId)).getD row

namespace Ledger.Loans

variable {d d' : Desk} {loanId : String} {l row : Loan}

def knowing (d : Desk) (l : Loan) : Desk :=
  { d with session := { d.session with known := remember l d.session.known } }

theorem knowing_isReady (hd : d.IsReady) (l : Loan) : (knowing d l).IsReady := { hd with }

theorem get_none (hd : d.IsReady) (fresh : Bool) (hl : d.session.tables.loan? loanId = none) :
    get loanId fresh d = .ok none d := by
  have hq := query_calm hd (·.loan? loanId)
  rw [hl] at hq
  exact (call_calm hd.toIsCalm _ _ _).trans (guarded_of_ok ((Work.bind_of_ok hq).trans rfl))

theorem copyOf_id (s : Session) (row : Loan) : (s.copyOf row).loanId = row.loanId := by
  unfold Session.copyOf
  cases hk : s.known.loans.find? (·.loanId = row.loanId) with
  | none => rfl
  | some l => simpa using List.find?_some hk

theorem copyOf_known (s : Session) (hl : row.loanId = loanId)
    (hk : s.known.loans.find? (·.loanId = loanId) = some l) : s.copyOf row = l := by
  rw [Session.copyOf, hl, hk]
  rfl

theorem get_copy (hd : d.IsReady) (hrow : d.session.tables.loan? loanId = some row) :
    get loanId false d = .ok (some (d.session.copyOf row)) (knowing d (d.session.copyOf row)) := by
  have hq := query_calm hd (·.loan? loanId)
  rw [hrow] at hq
  refine (call_calm hd.toIsCalm _ _ _).trans (guarded_of_ok ((Work.bind_of_ok hq).trans ?_))
  refine (Work.bind_of_ok (Work.session_run d)).trans ?_
  rw [Session.copyOf, loan?_id hrow]
  rfl

/-- A loan is read afresh as its row says. -/
theorem get_fresh (hd : d.IsReady) (hrow : d.session.tables.loan? loanId = some row) :
    get loanId true d = .ok (some row) (knowing d row) := by
  have hq := query_calm hd (·.loan? loanId)
  rw [hrow] at hq
  refine (call_calm hd.toIsCalm _ _ _).trans (guarded_of_ok ((Work.bind_of_ok hq).trans ?_))
  exact Work.bind_of_ok (Work.session_run d)

theorem get_some (hd : d.IsReady) (fresh : Bool) (hl : d.session.tables.loan? loanId = some l)
    (hk : fresh = false → d.session.known.loans.find? (·.loanId = loanId) = some l) :
    get loanId fresh d = .ok (some l) (knowing d l) := by
  cases fresh with
  | true => exact get_fresh hd hl
  | false =>
    have hg := get_copy hd hl
    rwa [copyOf_known d.session (loan?_id hl) (hk rfl)] at hg

theorem require_calm (hd : d.IsReady) (fresh : Bool) (hl : d.session.tables.loan? loanId = some l)
    (hk : fresh = false → d.session.known.loans.find? (·.loanId = loanId) = some l) :
    require loanId fresh d = .ok l (knowing d l) :=
  (Work.bind_of_ok (get_some hd fresh hl hk)).trans rfl

theorem require_unknown (hd : d.IsReady) (fresh : Bool) (hl : d.session.tables.loan? loanId = none) :
    require loanId fresh d = .error (.failure (.loanNotFound loanId)) d :=
  (Work.bind_of_ok (get_none hd fresh hl)).trans rfl

theorem giveWay_calm (hd : d.IsCalm) (loanId : String) : giveWay loanId d = .ok () d := by
  unfold giveWay
  rw [Work.bind_of_ok (show isRivalled d = .ok d.hasRival d from rfl), hd.rival]
  rfl

theorem write_same {state : String} (h : state = l.state) (d : Desk) : write l state d = .ok l d := by
  rw [write, if_pos h]
  rfl

/-- The row of a loan gets a state while it has the version of the copy. -/
theorem write_moved {state : String} (hd : d.IsReady) (hne : state ≠ l.state)
    (hrow : d.session.tables.loan? l.loanId = some row) (hv : row.version = l.version) :
    write l state d = .ok { l with state, version := l.version + 1 }
      (knowing
        (d.withTables (d.session.tables.changeLoan l.loanId fun row => { row with state, version := l.version + 1 }))
        { l with state, version := l.version + 1 }) := by
  have current : (d.session.tables.loan? l.loanId).any (·.version = l.version) = true := by
    rw [hrow]
    simpa using hv
  rw [write, if_neg hne]
  exact (Work.bind_of_ok (change_calm hd (if_pos current))).trans rfl

theorem write_calm (hd : d.IsReady) (hl : d.session.tables.loan? l.loanId = some l) (state : String) :
    ∃ moved d', write l state d = .ok moved d' ∧ d'.session.isBroken = false := by
  by_cases hs : state = l.state
  · exact ⟨l, d, write_same hs d, hd.sound⟩
  · exact ⟨_, _, write_moved hd hs hl rfl, hd.sound⟩

theorem updateState_written {state : String} {expected : Option String} {moved : Loan} {d₁ d₂ : Desk}
    (hd : d.IsCalm) (hr : require loanId false d = .ok l d₁) (hexp : ∀ s ∈ expected, s = l.state)
    (hw : write l state d₁ = .ok moved d₂) :
    ∃ d₃, updateState loanId state expected d = .ok (some moved) d₃ ∧ d₃.session = d₂.session := by
  obtain ⟨d₃, he, -, hs, -⟩ := emit_calm .debug "services.ledger" "loan_state_updated"
    [("loan_id", .text loanId), ("from_state", .text l.state), ("to_state", .text state)] d₂
  refine ⟨d₃, ?_, hs⟩
  refine (Work.bind_of_ok (giveWay_calm hd loanId)).trans ((call_calm hd _ _ _).trans ((Work.bind_of_ok hr).trans ?_))
  rw [if_neg (by cases expected <;> simp_all)]
  exact (Work.bind_of_ok (guarded_of_ok (Work.recover_of_ok hw))).trans ((Work.bind_of_ok he).trans rfl)

theorem updateState_calm (hd : d.IsReady) (hl : d.session.tables.loan? loanId = some l)
    (hk : d.session.known.loans.find? (·.loanId = loanId) = some l) (state : String) :
    ∃ o d', updateState loanId state (some l.state) d = .ok o d' ∧ d'.session.isBroken = false := by
  have hid := loan?_id hl
  obtain ⟨moved, d₂, hw, hs₂⟩ := write_calm (knowing_isReady hd l) (by rw [hid]; exact hl) state
  obtain ⟨d₃, hu, hs₃⟩ := updateState_written hd.toIsCalm (require_calm hd false hl fun _ => hk)
    (fun s hs => (Option.some.inj hs).symm) hw
  exact ⟨some moved, d₃, hu, by rw [hs₃, hs₂]⟩

/-! ## Opening -/

variable {x : Definition}

theorem add_calm (hd : d.IsReady) (hv : Column.fitsInteger l.definitionVersion = true)
    (hl : d.session.tables.loan? l.loanId = none) :
    add l d = .ok () (knowing (d.withTables { d.session.tables with loans := d.session.tables.loans ++ [l] }) l) := by
  have hadd : d.session.tables.addLoan? l = some { d.session.tables with loans := d.session.tables.loans ++ [l] } :=
    Tables.addLoan?_eq_some.mpr ⟨hl, rfl⟩
  refine (Work.bind_of_ok (change_calm hd ?_)).trans rfl
  dsimp only
  rw [hv, hadd]
  rfl

/-- A loan is opened that is not open, where its log has room for an entry. -/
theorem open_ready (founderId actor : String) (hd : d.IsReady) (ht : d.clock.IsTimely) (hc : Chained d.session.tables)
    (hroom : d.session.tables.HasRoom loanId 1) (hl : d.session.tables.loan? loanId = none)
    (hv : Column.fitsInteger x.version = true) :
    ∃ d', open_ loanId founderId x actor d = .ok (initial loanId founderId x) d' ∧ d.Near d' ∧ d'.IsReady ∧
      ∃ time e, Appended loanId (openingRecord founderId actor x time)
        { d.session.tables with loans := d.session.tables.loans ++ [initial loanId founderId x] } e
          d'.session.tables := by
  have hadd := add_calm (l := initial loanId founderId x) hd hv hl
  generalize hd₁ : knowing (d.withTables _) _ = d₁ at hadd
  have near : d.Near d₁ := Keeps.ok hadd
  have ready : d₁.IsReady := hd₁ ▸ { hd with }
  have tables : d₁.session.tables =
      { d.session.tables with loans := d.session.tables.loans ++ [initial loanId founderId x] } := hd₁ ▸ rfl
  have timely : d₁.clock.IsTimely := near.clock.symm ▸ ht
  have chained : Chained d₁.session.tables :=
    hc.of_same (by rw [tables]) (by rw [tables])
  obtain ⟨time, hnow, htime⟩ := id timely
  obtain ⟨e, d₂, ha, o₂, happ⟩ := AuditLog.append_calm ready timely chained (by rw [tables]; exact hroom)
    (Engine.openingRecord_isSound founderId actor hv htime) nofun
  obtain ⟨d₃, he, o₃, hs₃, -⟩ := emit_calm .info "services.ledger" "loan_opened" [
    ("loan_id", .text loanId), ("founder_id", .text founderId), ("initial_state", .text x.initialState),
    ("definition", .text x.label)] d₂
  refine ⟨d₃, ?_, Frame.trans near (o₂.trans o₃).toNear, (o₂.trans o₃).isReady ready, time, e, ?_⟩
  · refine (Work.bind_of_ok (get_none hd false hl)).trans ?_
    refine (Work.bind_of_ok (savepoint_calm hd hadd ready)).trans ?_
    exact (Work.bind_of_ok (now_calm hnow)).trans ((Work.bind_of_ok ha).trans ((Work.bind_of_ok he).trans rfl))
  · rw [hs₃, ← tables]
    exact happ

/-- Opening a loan leaves room for one entry less. -/
theorem open_calm {n : Nat} (founderId actor : String) (h : d.Able loanId (n + 1))
    (hl : d.session.tables.loan? loanId = none) (hv : Column.fitsInteger x.version = true) :
    ∃ l d', open_ loanId founderId x actor d = .ok l d' ∧ d'.Able loanId n := by
  obtain ⟨d', ho, near, ready, time, e, ha⟩ :=
    open_ready founderId actor h.toIsReady h.isTimely h.chained (h.mono (by omega)).room hl hv
  have chained : Chained { d.session.tables with loans := d.session.tables.loans ++ [initial loanId founderId x] } :=
    h.chained.of_same rfl rfl
  refine ⟨_, d', ho, { ready with
    isTimely := near.clock.symm ▸ h.isTimely
    chained := chained.appended ha
    room := ?_
    fresh := h.fresh.of_names near.names
    issued := h.issued.mono near.names near.used ha.disbursements }⟩
  have hroom := h.room
  unfold Tables.HasRoom at hroom ⊢
  rw [ha.logOf, List.length_append, List.length_singleton]
  change (d.session.tables.logOf loanId).length + 1 + n < _
  omega

theorem open_again (founderId actor : String) (x : Definition) (hd : d.IsReady)
    (hl : d.session.tables.loan? loanId = some row) :
    open_ loanId founderId x actor d =
      .error (.failure (.loanAlreadyExists loanId)) (knowing d (d.session.copyOf row)) :=
  (Work.bind_of_ok (get_copy hd hl)).trans rfl

end Ledger.Loans

/-! ## Payments -/

namespace Ledger.Disbursements

variable {d d' : Desk} {loanId id : String} {x : Disbursement} {n : Nat}

theorem pay_calm (h : d.Able loanId n) {time : Calendar.Timestamp} (ht : time.IsTimely) :
    ∃ y d', pay x time d = .ok y d' ∧ d'.Able loanId n := by
  obtain ⟨u, hu⟩ := keepTime?_ok ht
  have hp : pay x time d = .ok _ _ := (Work.bind_of_ok (change_calm (t := d.session.tables.changeDisbursement x.id
    fun row => { row with status := .paid, paidAt := some u }) h.toIsReady (by rw [hu]))).trans rfl
  refine ⟨_, _, hp, h.onward (Keeps.ok hp) h.sound rfl rfl fun y hy => ?_⟩
  obtain ⟨z, hz, rfl⟩ := List.mem_map.mp hy
  obtain ⟨i, hi, hid⟩ := h.issued z hz
  exact ⟨i, hi, by split <;> exact hid⟩

theorem markPaid_calm (actor : String) (h : d.Able loanId (n + 1)) {y : Disbursement}
    (hx : d.session.tables.disbursement? loanId id = some y) :
    ∃ z d', markPaid loanId id actor d = .ok z d' ∧ d'.Able loanId n := by
  obtain ⟨x, hg⟩ := get_calm h.toIsReady hx
  cases hp : x.isPaid with
  | true =>
    obtain ⟨d₁, he, o₁, hs₁, -⟩ := emit_calm .info "services.disbursement" "disbursement_already_paid"
      [("loan_id", .text x.loanId), ("disbursement_id", .text x.id)] d
    refine ⟨x, d₁, ?_, (h.emitted o₁ hs₁).mono (Nat.le_succ n)⟩
    refine (Work.bind_of_ok hg).trans ?_
    rw [hp]
    exact (Work.bind_of_ok he).trans rfl
  | false =>
    obtain ⟨time, hnow, htime⟩ := h.isTimely
    obtain ⟨paid, d₁, hpay, h₁⟩ := pay_calm (x := x) h htime
    obtain ⟨e, d₂, ha, -, -, h₂⟩ := h₁.append (Engine.paymentRecord_isSound x actor htime) nofun
    obtain ⟨d₃, he, o₃, hs₃, -⟩ := emit_calm .info "services.disbursement" "disbursement_paid"
      [("loan_id", .text x.loanId), ("disbursement_id", .text x.id)] d₂
    refine ⟨paid, d₃, ?_, h₂.emitted o₃ hs₃⟩
    refine (Work.bind_of_ok hg).trans ?_
    rw [hp]
    exact (Work.bind_of_ok (now_calm hnow)).trans ((Work.bind_of_ok (guarded_of_ok hpay)).trans
      ((Work.bind_of_ok ha).trans ((Work.bind_of_ok he).trans rfl)))

end Ledger.Disbursements

end LoanLedger
