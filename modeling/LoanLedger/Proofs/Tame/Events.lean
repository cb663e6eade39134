import LoanLedger.Proofs.Deeds
import LoanLedger.Proofs.Served
import LoanLedger.Proofs.Tame.Engine
import LoanLedger.Proofs.Tame.Leaks

/-!
# What leaks out of events

* `actions_leaks`, `weigh_leaks` : what leaks where the actions of a transition are done, and where an event is weighed;
* `findTransition_readable` : what is found under a key can be read, so that an event that was applied before is
  answered;
* `Awaits X g e d` : what an event finds committed; `locked_leaks` : what leaks out of it there, where no lock is held.
-/

namespace LoanLedger

open Ledger Workflow

theorem Event.IsTimely.occurredAt {e : Event} (h : e.IsTimely) : e.occurredAt.IsTimely := ⟨e.isAware, h⟩

namespace Engine

variable {X : Cause → Prop} {d d' : Desk} {t t' : Tables} {g : Engine} {h : Dispatcher} {e : Event} {n : Nat}

/-! ## Actions -/

/-- An action takes up the room of one entry at most. -/
theorem Acted.provides {task : Task} {r : ActionResult} (ha : Acted h task t r t')
    (ht : t.Provides X task.event.loanId (n + 1)) : t'.Provides X task.event.loanId n := by
  cases ha with
  | unknown _ ha => exact ht.appended ha
  | again => exact ht.less (Nat.le_succ n)
  | @anew _ row _ _ _ _ ha =>
    have rows : (t.requested row).Provides X task.event.loanId (n + 1) := ht.of_same rfl rfl
    exact rows.appended ha

theorem Acts.provides {a b : String} {xs : List Action} {rs : List ActionResult} (ha : Acts h e a b xs t rs t') :
    t.Provides X e.loanId (xs.length + n) → t'.Provides X e.loanId n := by
  induction ha with
  | nil => exact fun ht => ht.less (Nat.le_add_left _ _)
  | cons ha _ ih => exact fun ht => ih (ha.provides (ht.less (by simp only [List.length_cons]; omega)))

theorem serviceFailure_leaks {err : Ledger.Error} (h : err.isKernel = true ∨ X err.cause) :
    (serviceFailure err).isKernel = true ∨ X (serviceFailure err).cause := by
  unfold serviceFailure
  split
  · split
    · exact .inl rfl
    · exact h
  · exact h

theorem request_leaks {task : Task} (ht : task.event.IsTimely ∨ X .calendar) (kind : Tranche) :
    Leaks (Desk.Provides X task.event.loanId 1) X (request task kind) := by
  have asked : Leaks (Desk.Provides X task.event.loanId 1) X
      (Work.recover (Ledger.Disbursements.request task.event.loanId kind) fun err => throw (serviceFailure err)) := by
    refine ⟨fun hd hP he => ?_⟩
    obtain ⟨err, d₁, he, hh⟩ := Work.recover_error he
    cases hh
    exact serviceFailure_leaks ((Disbursements.request_leaks _ kind).error hd hP.clocked he)
  refine asked.bind (Q := fun o d => o ≠ none ∧ d.Provides X task.event.loanId 1)
    (fun {d o d'} hd hP hr => ?_) fun o => ?_
  · rcases Work.recover_ok hr with hr | ⟨_, _, -, hh⟩
    · have books : SameBooks task.event.loanId d.session.tables d'.session.tables :=
        Keeps.ok (R := Desk.SameBooks task.event.loanId) hr
      refine ⟨fun ho => Disbursements.request_ne_none hd (ho ▸ hr), ?_⟩
      exact ⟨(Keeps.ok hr : d.Beside d').clocked hP.clocked, hP.rows.of_same books.entries books.counters⟩
    · cases hh
  · cases o with
    | none => exact .of_and fun ho => absurd rfl ho
    | some answer =>
      refine .of_and fun _ => Leaks.bind_same ((Tame.know _ : Tame [] _).tight (by simp)) know_ok fun _ => ?_
      dsimp only
      split
      · exact (AuditLog.append_leaks (requestRecord_isWritable task _) (ht.imp_left (·.occurredAt))).bind_tame
          fun _ =>
          .pure _
      · exact .pure _

theorem recordUnknown_leaks {task : Task} (ht : task.event.IsTimely ∨ X .calendar) :
    Leaks (Desk.Provides X task.event.loanId 1) X (recordUnknown task) := by
  refine (Leaks.emit (by simp) _ _ _).bind_same (fun he => congrArg _ (emit_ok he)) fun _ => ?_
  exact (AuditLog.append_leaks (unknownRecord_isWritable task) (ht.imp_left (·.occurredAt))).bind_tame fun _ => .pure _

theorem dispatch_leaks (h : Dispatcher) (task : Task) (ht : task.event.IsTimely ∨ X .calendar) :
    Leaks (Desk.Provides X task.event.loanId 1) X (h.dispatch task) := by
  have noted (r : ActionResult) : Leaks (fun _ => True) X (do
      emit .debug "services.action_dispatch" "action_dispatched" [
        ("trigger", .text task.action.trigger),
        ("action_kind", .text task.action.kind.word),
        ("recognized", .bool r.isRecognized),
        ("disbursement_created", .bool r.isCreated)]
      pure r) := (Leaks.emit (by simp) _ _ _).bind_tame fun _ => .pure r
  unfold Dispatcher.dispatch
  cases h.tranche? task.action.kind with
  | some kind => exact (request_leaks ht kind).bind_tame noted
  | none => exact (recordUnknown_leaks ht).bind_tame noted

theorem doAction_leaks (ht : e.IsTimely ∨ X .calendar) (a : String) (tr : Transition) (x : Action) :
    Leaks (Desk.Provides X e.loanId 1) X (g.doAction e a tr x) :=
  Leaks.bind_same ((checkCancelled_tame e _).tight (by decide)) (fun hc => congrArg _ (checkCancelled_books hc))
    fun _ => dispatch_leaks g.dispatcher ⟨e, a, tr.to, x⟩ ht

/-- The actions of a transition take up the room of one entry each. -/
theorem actions_leaks (ht : e.IsTimely ∨ X .calendar) (a : String) (tr : Transition) (xs : List Action) :
    Leaks (Desk.Provides X e.loanId (xs.length + n)) X (xs.mapM (g.doAction e a tr)) := by
  induction xs with
  | nil =>
    rw [List.mapM_nil]
    exact .pure []
  | cons x xs ih =>
    rw [List.mapM_cons]
    refine ((doAction_leaks ht a tr x).mono fun hP => hP.less (by simp only [List.length_cons]; omega)).bind
      (fun {d r d'} hd hP hr => ?_) fun r => ih.bind_tame fun rs => .pure (r :: rs)
    have acted := doAction_done (Desk.isHonest_of_faultless hd) (Desk.spares_of_faultless hd _) hr
    refine ⟨(Keeps.ok hr : d.Beside d').clocked hP.clocked, acted.provides (hP.rows.less ?_)⟩
    simp only [List.length_cons]
    omega

/-! ## Transitions -/

theorem ignore_leaks (ht : e.IsTimely ∨ X .calendar) (state : String) :
    Leaks (Desk.Provides X e.loanId 1) X (ignore e state) :=
  (AuditLog.append_leaks (ignoredRecord_isWritable e state) (ht.imp_left (·.occurredAt))).bind_tame fun _ =>
    Leaks.bind_tame ((checkCancelled_tame e _).tight (by decide)) fun _ => .pure _

/-- A transition takes up the room of its actions and of one entry more. -/
theorem take_leaks {l : Loan} {tr : Transition} (ht : e.IsTimely ∨ X .calendar) :
    Leaks (fun d => d.Provides X e.loanId (tr.actions.length + 1) ∧ d.session.tables.loan? e.loanId = some l) X
      (g.take e l.state tr) := by
  refine ((actions_leaks ht l.state tr tr.actions).mono And.left).bind
    (Q := fun _ d => d.Provides X e.loanId 1 ∧ d.session.tables.loan? e.loanId = some l)
      (fun {d rs d'} hd hP hr => ?_)
    fun rs => Leaks.bind (Q := fun _ => Desk.Provides X e.loanId 1)
      ((Loans.updateState_tame _ _ _).tight (by decide)) (fun {d o d'} hd hP hu => ?_) fun _ => ?_
  · have acts := actions_done (Desk.isHonest_of_faultless hd) (Desk.spares_of_faultless hd _) hr
    refine ⟨⟨(Keeps.ok hr : d.Beside d').clocked hP.1.clocked, acts.provides hP.1.rows⟩, ?_⟩
    rw [loan?_of_loans (actions_ok hr).loans]
    exact hP.2
  · have moved := Loans.updateState_ok (Desk.isHonest_of_faultless hd)
      (fun l' hl' => by rw [Option.some.inj (hl'.symm.trans hP.2)]) hu
    exact ⟨(Keeps.ok hu : d.Beside d').clocked hP.1.clocked, hP.1.rows.of_same moved.entries moved.counters⟩
  · exact (AuditLog.append_leaks (transitionRecord_isWritable e l.state tr.to) (ht.imp_left (·.occurredAt))).bind_tame
      fun _ => Leaks.bind_tame ((checkCancelled_tame e _).tight (by decide)) fun _ => .pure _

theorem weigh_leaks (ht : e.IsTimely ∨ X .calendar) :
    Leaks (Desk.Provides X e.loanId (mostActions g.definition + 1)) X (g.weigh e) := by
  refine Leaks.bind (Q := fun l d => d.Provides X e.loanId (mostActions g.definition + 1) ∧
    d.session.tables.loan? e.loanId = some l) ((Loans.require_tame _ _).tight (by decide)) (fun _ hP hr =>
      ?_) fun l => ?_
  · obtain ⟨htables, -, hl⟩ := Loans.require_ok hr
    exact ⟨hP.same (Keeps.ok hr) htables, by rw [htables]; exact hl rfl⟩
  refine Leaks.bind (Q := fun s d => g.definition.find? l.state = some s ∧
    d.Provides X e.loanId (mostActions g.definition + 1) ∧ d.session.tables.loan? e.loanId = some l)
    ((stateOf_tame g l).tight (by decide)) (fun _ hP hs => ?_) fun s => .of_and fun hs => ?_
  · obtain ⟨hfound, rfl⟩ := stateOf_ok hs
    exact ⟨hfound, hP⟩
  refine Leaks.bind (Q := fun _ d => d.Provides X e.loanId (mostActions g.definition + 1) ∧
    d.session.tables.loan? e.loanId = some l) ((AuditLog.findTransition_tame _).tight (by decide)) (fun _ hP hf =>
      ?_) fun o => ?_
  · have htables := congrArg Session.tables (AuditLog.findTransition_ok hf)
    exact ⟨hP.1.same (Keeps.ok hf) htables, by rw [htables]; exact hP.2⟩
  cases o with
  | some entry => exact .pure _
  | none =>
    dsimp only
    cases htr : s.find? e.type with
    | none => exact ((ignore_leaks ht l.state).mono fun hP => hP.1.less (by omega)).map
    | some tr =>
      have most := actions_le_most hs htr
      exact ((take_leaks ht).mono fun hP => ⟨hP.1.less (by omega), hP.2⟩).map

/-! ## Events that were applied before -/

/-- The attributes of an entry that is found can be read. -/
def IsReadable (o : Option Entry) : Prop := ∀ x, o = some x → ∃ es, x.details? = .ok es

/-- The session knows the entries as its rows have them, and every key records a move. -/
def IsKeyed (d : Desk) : Prop := d.session.known.entries = [] ∧ Keyed d.session.tables

theorem findTransition_readable {key : String} {o : Option Entry} (hd : IsKeyed d)
    (h : AuditLog.findTransition key d = .ok o d') : IsReadable o := by
  intro x hx
  rcases call_ok h with h | ⟨-, rfl, -⟩
  · obtain ⟨es, d₁, ha, h₁⟩ := Work.bind_ok (guarded_ok h)
    cases h₁
    rw [ask_ok (d := d.passed .findTransition) hd.1 ha, Option.head?_toList] at hx
    obtain ⟨_, _, hmove⟩ := hd.2.move? hx
    obtain ⟨es, hes, -⟩ := move?_eq hmove
    exact ⟨es, hes⟩
  · cases hx

theorem duplicateOf_leaks {o : Option Entry} (ho : IsReadable o) : Leaks P X (duplicateOf e o) := by
  have read : Tame [] (Work.ofExcept ((o.elim (.ok []) (·.details?)).mapError fun x =>
      Ledger.Error.content (.attributes x))) := by
    refine Tame.ofExcept fun err he => ?_
    cases o with
    | none => cases he
    | some x =>
      obtain ⟨es, hes⟩ := ho x rfl
      rw [Option.elim_some, hes] at he
      cases he
  exact (read.bind fun _ => Tame.begin.bind fun _ => (Tame.emit (by simp) _ _ _).bind fun _ => .pure _).tight (by simp)

theorem require_entries {loanId : String} {fresh : Bool} {l : Loan} (h : Loans.require loanId fresh d = .ok l d') :
    d'.session.known.entries = d.session.known.entries := by
  obtain ⟨o, d₁, hg, h₁⟩ := Work.bind_ok h
  cases o with
  | none => cases h₁
  | some l =>
    cases h₁
    rcases call_ok hg with hg | ⟨-, ho, -⟩
    · obtain ⟨found, d₂, hq, h₂⟩ := Work.bind_ok (guarded_ok hg)
      obtain ⟨-, hsame⟩ := query_ok hq
      cases found with
      | none => cases h₂
      | some row =>
        cases h₂
        change d₂.session.known.entries = (d.passed .getLoan).session.known.entries
        rw [hsame]
    · cases ho

theorem weigh_readable {entry : Entry} (hd : IsKeyed d) (h : g.weigh e d = .ok (.inl entry) d') :
    IsReadable (some entry) := by
  obtain ⟨l, d₁, hr, hf⟩ := weigh_found h
  have keyed : IsKeyed d₁ := ⟨(require_entries hr).trans hd.1, by rw [(Loans.require_ok hr).1]; exact hd.2⟩
  exact findTransition_readable keyed hf

theorem decide_leaks (ht : e.IsTimely ∨ X .calendar) :
    Leaks (fun d => d.Provides X e.loanId (mostActions g.definition + 1) ∧ IsKeyed d) X (g.decide_ e) := by
  refine ((weigh_leaks ht).mono And.left).bind (Q := fun r _ => ∀ entry, r = .inl entry → IsReadable (some entry))
    (fun _ hP hw entry hr => weigh_readable hP.2 (hr ▸ hw)) fun r => ?_
  cases r with
  | inl entry => exact .given fun hP => duplicateOf_leaks (hP entry rfl)
  | inr c => exact Leaks.bind_tame (commit_tame.tight (by decide)) fun _ => .pure c

theorem resolveDuplicate_leaks : Leaks (fun d => Keyed d.store) X (resolveDuplicate e) := by
  have found : Tame [.failure .ledgerUnavailable] (guarded "find_transition_entry" (AuditLog.findTransition e.key)) :=
    (AuditLog.findTransition_tame e.key).guarded _ (by decide) (by decide)
  refine Leaks.bind (Q := fun _ => IsKeyed) ((Tame.begin : Tame [] _).tight (by simp)) (fun _ hP h => ?_) fun _ => ?_
  · cases h
    exact ⟨rfl, hP⟩
  · refine (found.tight (by decide)).bind (Q := fun o _ => IsReadable o) (fun _ hP h => ?_) fun o => ?_
    · exact findTransition_readable hP (guarded_ok h)
    · exact .given duplicateOf_leaks

/-! ## The whole -/

/-- What is committed can be read, and there is room for what an event does, or it may leak that it is otherwise. -/
structure Awaits (X : Cause → Prop) (g : Engine) (e : Event) (d : Desk) : Prop where
  clocked : d.Clocked X
  rows : d.store.Provides X e.loanId (mostActions g.definition + 1)
  keyed : Keyed d.store

theorem Awaits.near (h : Awaits X g e d) (hn : d.Near d') : Awaits X g e d' :=
  ⟨hn.toBeside.clocked h.clocked, hn.store ▸ h.rows, hn.store ▸ h.keyed⟩

theorem decide_error_store {err : Ledger.Error} (hd : d.IsHonest) (hb : d.Begun d) (h : g.decide_ e d = .error err d') :
    d'.store = d.store := by
  have settled := decide_settled g e hd hb
  rw [h] at settled
  cases settled with
  | failed hs => exact hs

theorem apply_leaks (ht : e.IsTimely ∨ X .calendar) : Leaks (Awaits X g e) X (g.apply e) := by
  refine ⟨fun {d err d'} hd hP h => ?_⟩
  obtain ⟨d₁, h₁⟩ := inSession_error h
  obtain ⟨err₁, d₂, h₂, hh⟩ := Work.recover_error h₁
  split at hh
  · -- the session begins anew, from what is committed
    have near : Desk.Beside { d with session := .of d.store } d₂ := Keeps.error h₂
    have same : d₂.store = d.store := decide_error_store (d := { d with session := .of d.store })
      (Desk.isHonest_of_faultless hd) ⟨rfl, rfl, rfl, Nat.le_refl _, rfl, rfl⟩ h₂
    exact resolveDuplicate_leaks.error (near.faults hd) (same ▸ hP.keyed) hh
  · cases hh
    exact (decide_leaks ht).error (d := { d with session := .of d.store }) hd
      ⟨⟨hP.clocked, hP.rows⟩, rfl, hP.keyed⟩ h₂

/-- What leaks out of an event, where no lock is held. -/
theorem locked_leaks (ht : e.IsTimely ∨ X .calendar)
    (hp : ∀ r, Patience.ofValue? g.lockTimeout = .error r → X .patience) :
    Leaks (fun d => d.locks = .empty ∧ Awaits X g e d) X (g.locked e) := by
  have entered : Leaks (Awaits X g e) X (do checkCancelled e "lock_acquired"; g.apply e) :=
    ((checkCancelled_tame e _).tight (by decide)).bind (fun _ hP h => hP.near (Keeps.ok h)) fun _ => apply_leaks ht
  refine ⟨fun {d err d'} hd ⟨hl, hP⟩ h => ?_⟩
  cases hr : Patience.ofValue? g.lockTimeout with
  | error r =>
    have refused : (d.locks.hold e.loanId g.lockTimeout).2 = .error (.patience r) := by rw [Locks.hold, hr]
    rw [locked, withLock_refused refused] at h
    cases h
    exact .inr (hp r hr)
  | ok p =>
    have held : (d.locks.hold e.loanId g.lockTimeout).2 = .ok () := hl ▸ Locks.hold_empty hr e.loanId
    cases hx : (do checkCancelled e "lock_acquired"; g.apply e : Work Decision) (d.held e.loanId g.lockTimeout) with
    | ok c d₁ => cases (withLock_of_ok held hx).symm.trans h
    | error err₁ d₁ =>
      cases (withLock_of_error held hx).symm.trans h
      exact entered.error (d := d.held e.loanId g.lockTimeout) hd ⟨hP.clocked, hP.rows, hP.keyed⟩ hx

end Engine

end LoanLedger
