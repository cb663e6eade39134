import LoanLedger.Proofs.Following

/-!
# Events outside the calendar

An event may happen at a time of the calendar whose instant in UTC is before the first or after the last day of it.

* `LeavesCalendar x d` : the work fails since a time is not known in UTC, which is no failure of the ledger or the
  workflow;
* `actions_untimely` : the actions of a transition for such an event are done, as long as none of them is recorded, or
  leave the calendar;
* `handle_untimely` : where nothing disturbs it, every such event leaves the calendar, unless it is turned away before
  it is recorded: its loan is not open, is in a state that is not declared, or the event was applied before.
-/

namespace LoanLedger

open Ledger Workflow

namespace Ledger

variable {α β : Type} {x y : Work α} {f : α → Work β} {a : α} {d d₁ : Desk} {loanId : String} {n : Nat}
    {r : AuditRecord}

/-- The work fails since a time is not known in UTC. -/
def LeavesCalendar (x : Work α) (d : Desk) : Prop := ∃ d', x d = .error .outOfCalendar d'

namespace LeavesCalendar

theorem bind (h : LeavesCalendar x d) (f : α → Work β) : LeavesCalendar (x >>= f) d :=
  h.imp fun _ h => Work.bind_of_error h

theorem after (h : x d = .ok a d₁) (hf : LeavesCalendar (f a) d₁) : LeavesCalendar (x >>= f) d :=
  hf.imp fun _ hf => (Work.bind_of_ok h).trans hf

theorem map (h : LeavesCalendar x d) (g : α → β) : LeavesCalendar (g <$> x) d :=
  h.imp fun _ h => Work.map_of_error h

theorem guarded {operation : String} (h : LeavesCalendar x d) : LeavesCalendar (guarded operation x) d :=
  h.imp fun _ h => (Work.recover_of_error h).trans rfl

theorem savepoint (hd : d.IsReady) (h : LeavesCalendar x d) : LeavesCalendar (savepoint x y) d :=
  h.imp fun _ h => savepoint_of_error (statement_calm hd) (Work.bind_of_error h) nofun

end LeavesCalendar

theorem utc_untimely {time : Calendar.Timestamp} (ha : time.isAware = true) (ht : time.toUtc? = none) (d : Desk) :
    LeavesCalendar (utc time) d := by
  have hsome : time.offset.isNone = false := by
    rw [Calendar.Timestamp.isAware] at ha
    rw [Option.isNone_eq_false_iff, ha]
  refine ⟨d, ?_⟩
  unfold utc
  rw [hsome, ht]
  rfl

namespace AuditLog

theorem next_untimely (h : d.Able loanId 1) (ha : r.timestamp.isAware = true) (ht : r.timestamp.toUtc? = none) :
    LeavesCalendar (next loanId r) d := by
  obtain ⟨seq, d₁, hn, o₁⟩ := Sequence.next_calm h.toIsReady (HasRoom.fits h.chained h.room)
  exact .after hn (.after (query_calm (o₁.isReady h.toIsReady) _) ((utc_untimely ha ht d₁).bind _))

theorem keyed_untimely (h : LeavesCalendar (next loanId r) d) (hd : d.IsReady) :
    LeavesCalendar (match r.key with
      | none => next loanId r
      | some key => Ledger.savepoint (next loanId r) (afterConflict loanId key)) d := by
  cases r.key with
  | none => exact h
  | some key => exact h.savepoint hd

/-- What happens at a time that is not known in UTC is not recorded. -/
theorem append_untimely (h : d.Able loanId 1) (ha : r.timestamp.isAware = true)
    (ht : r.timestamp.toUtc? = none) : LeavesCalendar (append loanId r) d := by
  have tried := keyed_untimely (next_untimely h ha ht) h.toIsReady
  exact (tried.guarded.bind _).imp fun _ h' => (call_calm h.toIsCalm _ _ _).trans h'

end AuditLog

end Ledger

namespace Engine

variable {d d' : Desk} {g : Engine} {e : Event} {n : Nat}

theorem toUtc?_eq_none (he : ¬ e.IsTimely) : e.occurredAt.toUtc? = none :=
  Option.eq_none_iff_forall_ne_some.mpr fun u hu => he ⟨u, hu⟩

/-! ## Actions -/

/-- A tranche that is requested anew is not recorded. -/
theorem request_untimely {task : Task} (h : d.Able task.event.loanId 1) (he : ¬ task.event.IsTimely) (kind : Tranche) :
    (∃ r d', request task kind d = .ok r d' ∧ d.Onward d' ∧ d'.Able task.event.loanId 1) ∨
      LeavesCalendar (request task kind) d := by
  obtain ⟨answer, d₀, hr, o₀, h₀⟩ := Disbursements.request_calm h kind
  have onward := Disbursements.forgetting_onward d₀ answer.record.id
  have h₁ := h₀.same onward.toNear (onward.isReady h₀.toIsReady).sound rfl
  have hr := request_answered hr
  cases hc : answer.created with
  | true =>
    rw [hc] at hr
    have refused :=
      AuditLog.append_untimely (r := requestRecord task { answer.record with kind }) h₁ task.event.isAware
        (toUtc?_eq_none he)
    exact .inr ((refused.bind _).imp fun _ h' => hr.trans h')
  | false =>
    rw [hc] at hr
    exact .inl ⟨_, _, hr, o₀.trans onward, h₁⟩

theorem recordUnknown_untimely {task : Task} (h : d.Able task.event.loanId 1) (he : ¬ task.event.IsTimely) :
    LeavesCalendar (recordUnknown task) d := by
  obtain ⟨d₁, hn, o₁, hs₁, -⟩ := emit_calm .warning "services.action_dispatch" "unknown_action"
    [("trigger", .text task.action.trigger), ("from_state", .text task.fromState)] d
  exact .after hn ((AuditLog.append_untimely (h.emitted o₁ hs₁) task.event.isAware (toUtc?_eq_none he)).bind _)

theorem dispatch_untimely (x : Dispatcher) {task : Task} (h : d.Able task.event.loanId 1)
    (he : ¬ task.event.IsTimely) :
    (∃ r d', x.dispatch task d = .ok r d' ∧ d.Onward d' ∧ d'.Able task.event.loanId 1) ∨
      LeavesCalendar (x.dispatch task) d := by
  unfold Dispatcher.dispatch
  cases x.tranche? task.action.kind with
  | none => exact .inr ((recordUnknown_untimely h he).bind _)
  | some kind =>
    rcases request_untimely h he kind with ⟨r, d₁, hr, o₁, h₁⟩ | hr
    · obtain ⟨d₂, hn, o₂, hs₂, -⟩ := emit_calm .debug "services.action_dispatch" "action_dispatched" [
        ("trigger", .text task.action.trigger), ("action_kind", .text task.action.kind.word),
        ("recognized", .bool r.isRecognized), ("disbursement_created", .bool r.isCreated)] d₁
      exact .inl ⟨r, d₂, (Work.bind_of_ok hr).trans ((Work.bind_of_ok hn).trans rfl), o₁.trans o₂,
        h₁.emitted o₂ hs₂⟩
    · exact .inr (hr.bind _)

/-- The actions of a transition are done, as long as none of them is recorded, or leave the calendar. -/
theorem actions_untimely (a : String) (tr : Transition) (xs : List Action) (he : ¬ e.IsTimely) :
    ∀ {d : Desk}, d.Able e.loanId 1 →
      (∃ rs d', xs.mapM (g.doAction e a tr) d = .ok rs d' ∧ d.Onward d' ∧ d'.Able e.loanId 1) ∨
        LeavesCalendar (xs.mapM (g.doAction e a tr)) d := by
  induction xs with
  | nil => exact fun {d} h => .inl ⟨[], d, by rw [List.mapM_nil]; rfl, .refl d, h⟩
  | cons x xs ih =>
    intro d h
    rw [List.mapM_cons]
    let task : Task := ⟨e, a, tr.to, x⟩
    have done : g.doAction e a tr x d = g.dispatcher.dispatch task d := checked_calm h.toIsCalm e _ _
    have able : d.Able task.event.loanId 1 := h
    rcases dispatch_untimely g.dispatcher able he with ⟨r, d₁, hr, o₁, h₁⟩ | ⟨d₁, hr⟩
    · rcases ih h₁ with ⟨rs, d₂, hrs, o₂, h₂⟩ | hrs
      · exact .inl ⟨r :: rs, d₂, (Work.bind_of_ok (done.trans hr)).trans ((Work.bind_of_ok hrs).trans rfl),
          o₁.trans o₂, h₂⟩
      · exact .inr (.after (done.trans hr) (hrs.bind _))
    · exact .inr (.bind ⟨d₁, done.trans hr⟩ _)

/-! ## Transitions -/

variable {l : Loan} {s : State}

theorem take_untimely {tr : Transition} (h : d.Able e.loanId 1) (he : ¬ e.IsTimely)
    (hl : d.session.tables.loan? e.loanId = some l)
    (hk : d.session.known.loans.find? (·.loanId = e.loanId) = some l) : LeavesCalendar (g.take e l.state tr) d := by
  rcases actions_untimely (g := g) l.state tr tr.actions he h with ⟨rs, d₁, hacts, o₁, h₁⟩ | hacts
  · obtain ⟨o, d₂, hu, h₂, -⟩ := moved_calm h₁ ((loan?_of_loans (actions_ok hacts).loans e.loanId).trans hl)
      (by rw [o₁.loans]; exact hk) tr.to
    exact .after hacts (.after hu ((AuditLog.append_untimely h₂ e.isAware (toUtc?_eq_none he)).bind _))
  · exact hacts.bind _

/-- An event that would be recorded leaves the calendar. -/
theorem moved_untimely (h : d.Able e.loanId 1) (he : ¬ e.IsTimely) (hl : d.session.tables.loan? e.loanId = some l)
    (hk : d.session.known.loans.find? (·.loanId = e.loanId) = some l) (tr? : Option Transition) :
    LeavesCalendar (match tr? with
      | none => .inr <$> ignore e l.state
      | some tr => .inr <$> g.take e l.state tr : Work (Entry ⊕ Decision)) d := by
  cases tr? with
  | none => exact ((AuditLog.append_untimely h e.isAware (toUtc?_eq_none he)).bind _).map _
  | some tr => exact (take_untimely h he hl hk).map _

theorem weigh_untimely (h : d.Able e.loanId 1) (hk : d.session.known.entries = []) (he : ¬ e.IsTimely)
    (hl : d.session.tables.loan? e.loanId = some l) (hs : g.definition.find? l.state = some s)
    (hfree : d.session.tables.entryByKey? e.key = none) : LeavesCalendar (g.weigh e) d := by
  have h₁ : (Loans.knowing d l).Able e.loanId 1 := h.same (Frame.know d _) h.sound rfl
  have left := moved_untimely (g := g) h₁ he hl (knowing_known hl) (s.find? e.type)
  exact left.imp fun _ h' => (weigh_new h.toIsReady hk hl hs hfree).trans h'

/-- Where nothing disturbs it, every event at a time that is not known in UTC leaves the calendar, if its loan is open
in a declared state and the event was not applied before. -/
theorem handle_untimely (hg : g.IsSound) (h : IsOpen d 1) (hd : d.IsCalm) (ht : d.clock.IsTimely) (he : ¬ e.IsTimely)
    (hl : d.store.loan? e.loanId = some l) (hs : g.definition.find? l.state = some s)
    (hfree : d.store.entryByKey? e.key = none) : LeavesCalendar (g.handle e) d := by
  obtain ⟨p, hp⟩ := hg.patience
  obtain ⟨d₁, hw⟩ := weigh_untimely (g := g) (h.begun hd ht) rfl he hl hs hfree
  exact handle_of_error hd (h.free hp e.loanId) (Work.bind_of_error hw) rfl

end Engine

end LoanLedger
