import LoanLedger.Proofs.Acting

/-!
# Serving undisturbed

* `Desk.entered d loanId timeout` : the desk as it stands when a call holds the lock of a loan and its session
  begins;
* `transact_of_ok`, `handle_of_decided`, `handle_of_ok`, … : what the work comes to there is what the call comes to;
* `weigh_unknown`, `weigh_undeclared`, `weigh_recorded`, `weigh_ignored`, `weigh_applied` : how an event is
  weighed where nothing disturbs the work;
* `take_recorded` : a transition whose key is recorded is rejected as a duplicate;
* `duplicateOf_calm`, `resolveDuplicate_recorded` : an event that was applied before is answered by the move under its
  key.
-/

namespace LoanLedger

open Ledger Workflow

/-! ## Sessions under a lock -/

theorem Locks.hold_empty {timeout : Value} {p : Patience} (h : Patience.ofValue? timeout = .ok p) (id : String) :
    (Locks.hold .empty id timeout).2 = .ok () := by
  have free : (Locks.checkout .empty id).isHeld id = false := by
    rw [Locks.isHeld_checkout]
    rfl
  rw [Locks.hold, h]
  dsimp only
  rw [if_neg (by simp [free])]

/-- The desk as it stands when a call holds the lock of a loan and its session begins. -/
def Ledger.Desk.entered (d : Desk) (loanId : String) (timeout : Value) : Desk :=
  { d.held loanId timeout with session := .of d.store }

namespace Engine

variable {α : Type} {x : Work α} {a : α} {err : Ledger.Error} {d d₁ : Desk} {g : Engine} {e : Event}
  {loanId : String} {timeout : Value} {n : Nat}

theorem inSession_of_ok (h : x { d with session := .of d.store } = .ok a d₁) :
    inSession x d = .ok a { d₁ with session := .of d₁.store } :=
  (Work.bind_of_ok rfl).trans (Work.finally_of_ok h)

theorem inSession_of_error (h : x { d with session := .of d.store } = .error err d₁) :
    inSession x d = .error err { d₁ with session := .of d₁.store } :=
  (Work.bind_of_ok rfl).trans (Work.finally_of_error h)

theorem inSession_ok {d' : Desk} (h : inSession x d = .ok a d') :
    ∃ d₁, x { d with session := .of d.store } = .ok a d₁ := by
  cases hx : x { d with session := .of d.store } with
  | ok b d₁ =>
    rw [inSession_of_ok hx] at h
    cases h
    exact ⟨d₁, rfl⟩
  | error e d₁ =>
    rw [inSession_of_error hx] at h
    cases h

theorem inSession_error {d' : Desk} (h : inSession x d = .error err d') :
    ∃ d₁, x { d with session := .of d.store } = .error err d₁ := by
  cases hx : x { d with session := .of d.store } with
  | ok a d₁ =>
    rw [inSession_of_ok hx] at h
    cases h
  | error e d₁ =>
    rw [inSession_of_error hx] at h
    cases h
    exact ⟨d₁, rfl⟩

theorem transact_of_ok (hl : (d.locks.hold loanId g.lockTimeout).2 = .ok ())
    (h : x (d.entered loanId g.lockTimeout) = .ok a d₁) (h₁ : d₁.IsReady) :
    ∃ d', g.transact loanId x d = .ok a d' ∧ d'.store = d₁.session.tables ∧ d'.ids = d₁.ids := by
  have done : (do let a ← x; commit; pure a : Work α) (d.entered loanId g.lockTimeout) = .ok a d₁.committed :=
    (Work.bind_of_ok h).trans ((Work.bind_of_ok (guarded_of_ok (commit_calm h₁))).trans rfl)
  exact ⟨_, withLock_of_ok hl (inSession_of_ok done), rfl, rfl⟩

theorem transact_of_error (hl : (d.locks.hold loanId g.lockTimeout).2 = .ok ())
    (h : x (d.entered loanId g.lockTimeout) = .error err d₁) : ∃ d', g.transact loanId x d = .error err d' :=
  ⟨_, withLock_of_error hl (inSession_of_error (Work.bind_of_error h))⟩

def holding (g : Engine) (e : Event) (d : Desk) : Desk := (d.bound (eventContext e)).held e.loanId g.lockTimeout

theorem holding_isCalm (hd : d.IsCalm) : (g.holding e d).IsCalm := ⟨hd.faults, hd.rival, hd.checks⟩

/-- What an event is decided to, once duplicates are resolved, is what the call comes to under the lock of its loan. -/
theorem handle_of_decided {c : Decision} (hl : (d.locks.hold e.loanId g.lockTimeout).2 = .ok ())
    (hc : checkCancelled e "lock_acquired" (g.holding e d) = .ok () (g.holding e d))
    (h : (g.decide_ e).recover (fun x => if x.isDuplicate then resolveDuplicate e else throw x)
      ((d.bound (eventContext e)).entered e.loanId g.lockTimeout) = .ok c d₁) :
    ∃ d', g.handle e d = .ok (Outcome.of e c) d' ∧ d'.store = d₁.store ∧ d'.ids = d₁.ids := by
  have applied : (do checkCancelled e "lock_acquired"; g.apply e : Work Decision) (g.holding e d) =
      .ok c { d₁ with session := .of d₁.store } := (Work.bind_of_ok hc).trans (inSession_of_ok h)
  have released := withLock_of_ok (d := d.bound (eventContext e)) hl applied
  obtain ⟨log, hn⟩ := emit_run .info "services.workflow_engine" "workflow_transition"
    ((Outcome.of e c).trace g.definition e) _
  exact ⟨_,
    withContext_of_ok ((Work.bind_of_ok (Work.recover_of_ok released)).trans (Work.bind_of_ok hn)), rfl, rfl⟩

theorem handle_of_failed (hl : (d.locks.hold e.loanId g.lockTimeout).2 = .ok ())
    (hc : checkCancelled e "lock_acquired" (g.holding e d) = .ok () (g.holding e d))
    (h : (g.decide_ e).recover (fun x => if x.isDuplicate then resolveDuplicate e else throw x)
      ((d.bound (eventContext e)).entered e.loanId g.lockTimeout) = .error err d₁) :
    ∃ d', g.handle e d = .error err d' ∧ d'.store = d₁.store ∧ d'.ids = d₁.ids := by
  have applied : (do checkCancelled e "lock_acquired"; g.apply e : Work Decision) (g.holding e d) =
      .error err { d₁ with session := .of d₁.store } := (Work.bind_of_ok hc).trans (inSession_of_error h)
  have released := withLock_of_error (d := d.bound (eventContext e)) hl applied
  obtain ⟨log, hn⟩ := noteFailure_run g e err _
  exact ⟨_, withContext_of_error (Work.bind_of_error ((Work.recover_of_error released).trans (Work.bind_of_ok hn))),
    rfl, rfl⟩

theorem handle_of_ok {c : Decision} (hd : d.IsCalm) (hl : (d.locks.hold e.loanId g.lockTimeout).2 = .ok ())
    (h : g.decide_ e ((d.bound (eventContext e)).entered e.loanId g.lockTimeout) = .ok c d₁) :
    ∃ d', g.handle e d = .ok (Outcome.of e c) d' ∧ d'.store = d₁.store ∧ d'.ids = d₁.ids :=
  handle_of_decided hl (checkCancelled_calm (holding_isCalm hd) e _) (Work.recover_of_ok h)

theorem handle_of_error (hd : d.IsCalm) (hl : (d.locks.hold e.loanId g.lockTimeout).2 = .ok ())
    (h : g.decide_ e ((d.bound (eventContext e)).entered e.loanId g.lockTimeout) = .error err d₁)
    (hdup : err.isDuplicate = false) : ∃ d', g.handle e d = .error err d' := by
  have refused : (g.decide_ e).recover (fun x => if x.isDuplicate then resolveDuplicate e else throw x)
      ((d.bound (eventContext e)).entered e.loanId g.lockTimeout) = .error err d₁ := by
    rw [Work.recover_of_error h, hdup]
    rfl
  obtain ⟨d', hr, -⟩ := handle_of_failed hl (checkCancelled_calm (holding_isCalm hd) e _) refused
  exact ⟨d', hr⟩

/-! ## Events that are answered at once -/

section Weighing

variable {l : Loan} {s : State} {entry : Entry} {t : Transition} {a b : String}

theorem weigh_unknown (hd : d.IsReady) (hl : d.session.tables.loan? e.loanId = none) :
    g.weigh e d = .error (.failure (.loanNotFound e.loanId)) d :=
  Work.bind_of_error (Loans.require_unknown hd true hl)

theorem stateOf_of_none (d : Desk) (hs : g.definition.find? l.state = none) :
    ∃ d', g.stateOf l d = .error (.failure (.invalidState l.loanId l.state g.definition.name)) d' := by
  obtain ⟨log, he⟩ := emit_run .error "services.workflow_engine" "loan_state_not_in_definition"
    [("state", .text l.state), ("workflow", .text g.definition.label)] d
  refine ⟨{ d with log }, ?_⟩
  unfold stateOf
  rw [hs]
  exact (Work.bind_of_ok he).trans rfl

theorem weigh_undeclared (hd : d.IsReady) (hl : d.session.tables.loan? e.loanId = some l)
    (hs : g.definition.find? l.state = none) :
    ∃ d', g.weigh e d = .error (.failure (.invalidState l.loanId l.state g.definition.name)) d' := by
  obtain ⟨d', hd'⟩ := stateOf_of_none (g := g) (Loans.knowing d l) hs
  exact ⟨d', (Work.bind_of_ok (Loans.require_calm hd true hl nofun)).trans (Work.bind_of_error hd')⟩

theorem stateOf_of_some (d : Desk) (hs : g.definition.find? l.state = some s) : g.stateOf l d = .ok s d := by
  unfold stateOf
  rw [hs]
  rfl

theorem weigh_recorded (hd : d.IsReady) (hk : d.session.known.entries = [])
    (hl : d.session.tables.loan? e.loanId = some l) (hs : g.definition.find? l.state = some s)
    (he : d.session.tables.entryByKey? e.key = some entry) : g.weigh e d = .ok (.inl entry) (Loans.knowing d l) := by
  have hf : AuditLog.findTransition e.key (Loans.knowing d l) = .ok (some entry) (Loans.knowing d l) :=
    he ▸ findTransition_calm (Loans.knowing_isReady hd l) hk e.key
  exact (Work.bind_of_ok (Loans.require_calm hd true hl nofun)).trans
    ((Work.bind_of_ok (stateOf_of_some _ hs)).trans ((Work.bind_of_ok hf).trans rfl))

/-- An event that was not applied before takes its way. -/
theorem weigh_new (hd : d.IsReady) (hk : d.session.known.entries = []) (hl : d.session.tables.loan? e.loanId = some l)
    (hs : g.definition.find? l.state = some s) (he : d.session.tables.entryByKey? e.key = none) :
    g.weigh e d = (match s.find? e.type with
      | none => .inr <$> ignore e l.state
      | some t => .inr <$> g.take e l.state t : Work (Entry ⊕ Decision)) (Loans.knowing d l) := by
  have hf : AuditLog.findTransition e.key (Loans.knowing d l) = .ok none (Loans.knowing d l) :=
    he ▸ findTransition_calm (Loans.knowing_isReady hd l) hk e.key
  exact (Work.bind_of_ok (Loans.require_calm hd true hl nofun)).trans
    ((Work.bind_of_ok (stateOf_of_some _ hs)).trans (Work.bind_of_ok hf))

theorem knowing_known (hl : d.session.tables.loan? e.loanId = some l) :
    (Loans.knowing d l).session.known.loans.find? (·.loanId = e.loanId) = some l := by
  simp [Loans.knowing, Loans.remember, loan?_id hl]

theorem text?_eq {name : String} (h : entry.text? name = some a) :
    ∃ es, entry.attributes = .map es ∧ Entries.field? es name = some (.text a) := by
  unfold Entry.text? at h
  split at h
  · next es he =>
    refine ⟨es, he, ?_⟩
    split at h
    · next hf =>
      cases h
      exact hf
    · cases h
  · cases h

theorem move?_eq (h : entry.move? = some (a, b)) : ∃ es, entry.details? = .ok es ∧
    Entries.field? es "from_state" = some (.text a) ∧ Entries.field? es "to_state" = some (.text b) := by
  obtain ⟨a', hfrom, h⟩ := Option.bind_eq_some_iff.mp h
  obtain ⟨b', hto, h⟩ := Option.bind_eq_some_iff.mp h
  cases h
  obtain ⟨es, hes, hf⟩ := text?_eq hfrom
  obtain ⟨es', hes', ht⟩ := text?_eq hto
  cases hes.symm.trans hes'
  refine ⟨es, ?_, hf, ht⟩
  cases es with
  | nil => cases hf
  | cons p es => rw [Entry.details?, hes]; rfl

/-- The decision on an event whose entry has some attributes: the move that they tell of. -/
def repeated (attributes : Entries) : Decision :=
  .duplicate ((attributes.field? "from_state").getD (.text "")) (attributes.field "to_state")

theorem duplicateOf_details {es : Entries} (d : Desk) (h : entry.details? = .ok es) :
    ∃ d', duplicateOf e (some entry) d = .ok (repeated es) d' ∧ d'.store = d.store := by
  obtain ⟨log, he⟩ := emit_run .info "services.workflow_engine" "workflow_event_duplicate"
    [("idempotency_key", .text e.key)] { d with session := .of d.store }
  have hback : rollback d = .ok () { d with session := .of d.store } := rfl
  have hattr : Work.ofExcept (((some entry).elim (.ok []) (·.details?)).mapError fun x =>
      Ledger.Error.content (.attributes x)) d = .ok es d := by
    rw [Option.elim_some, h]
    rfl
  exact ⟨{ d with session := .of d.store, log }, (Work.bind_of_ok hattr).trans
    ((Work.bind_of_ok hback).trans ((Work.bind_of_ok he).trans rfl)), rfl⟩

theorem repeated_of_move {es : Entries} (hes : entry.details? = .ok es) (h : entry.move? = some (a, b)) :
    repeated es = .duplicate (.text a) (.text b) := by
  obtain ⟨es', hes', hf, ht⟩ := move?_eq h
  obtain rfl := Except.ok.inj (hes.symm.trans hes')
  rw [repeated, hf, Entries.field, ht]
  rfl

theorem duplicateOf_calm (d : Desk) (h : entry.move? = some (a, b)) :
    ∃ d', duplicateOf e (some entry) d = .ok (.duplicate (.text a) (.text b)) d' ∧ d'.store = d.store := by
  obtain ⟨es, hes, -⟩ := move?_eq h
  rw [← repeated_of_move hes h]
  exact duplicateOf_details d hes

theorem resolveDuplicate_recorded {es : Entries} (hd : d.IsCalm) (he : d.store.entryByKey? e.key = some entry)
    (hes : entry.details? = .ok es) : ∃ d', resolveDuplicate e d = .ok (repeated es) d' ∧ d'.store = d.store := by
  have ready : Desk.IsReady { d with session := .of d.store } := ⟨{ hd with }, rfl⟩
  have found : AuditLog.findTransition e.key { d with session := .of d.store } =
      .ok (some entry) { d with session := .of d.store } :=
    he ▸ findTransition_calm ready rfl e.key
  obtain ⟨d', hr, hs⟩ := duplicateOf_details (e := e) { d with session := .of d.store } hes
  exact ⟨d', (Work.bind_of_ok (show rollback d = .ok () { d with session := .of d.store } from rfl)).trans
    ((Work.bind_of_ok (guarded_of_ok found)).trans hr), hs⟩

/-! ## Events that are recorded -/

theorem weigh_ignored (h : d.Able e.loanId (n + 1)) (hk : d.session.known.entries = []) (ht : e.IsTimely)
    (hl : d.session.tables.loan? e.loanId = some l) (hs : g.definition.find? l.state = some s)
    (he : d.session.tables.entryByKey? e.key = none) (hn : s.find? e.type = none) :
    ∃ d', g.weigh e d = .ok (.inr (.ignored l.state)) d' ∧ d'.Able e.loanId n := by
  have h₁ : (Loans.knowing d l).Able e.loanId (n + 1) := h.same (Frame.know d _) h.sound rfl
  obtain ⟨x, d₂, ha, o₂, -, h₂⟩ := h₁.append (ignoredRecord_isSound ht l.state) nofun
  rw [weigh_new h.toIsReady hk hl hs he, hn]
  exact ⟨d₂, Work.map_of_ok ((Work.bind_of_ok ha).trans ((checked_calm h₂.toIsCalm e _ _).trans rfl)), h₂⟩

/-- Between the actions and the record of the move the loan is moved. -/
theorem moved_roomy (h : d.Roomy e.loanId n) (hl : d.session.tables.loan? e.loanId = some l)
    (hk : d.session.known.loans.find? (·.loanId = e.loanId) = some l) (state : String) :
    ∃ o d', Loans.updateState e.loanId state (some l.state) d = .ok o d' ∧ d.Near d' ∧ d'.Roomy e.loanId n ∧
      d'.session.tables.entries = d.session.tables.entries ∧
      d'.session.tables.disbursements = d.session.tables.disbursements := by
  obtain ⟨o, d₁, hu, hs₁⟩ := Loans.updateState_calm h.toIsReady hl hk state
  have near : d.Near d₁ := Keeps.ok hu
  have moved := Loans.updateState_ok h.toIsCalm.isHonest (fun l' hl' => by rw [Option.some.inj (hl'.symm.trans hl)]) hu
  exact ⟨o, d₁, hu, near, h.onward near hs₁ moved.entries moved.counters, moved.entries, moved.disbursements⟩

theorem moved_calm (h : d.Able e.loanId n) (hl : d.session.tables.loan? e.loanId = some l)
    (hk : d.session.known.loans.find? (·.loanId = e.loanId) = some l) (state : String) :
    ∃ o d', Loans.updateState e.loanId state (some l.state) d = .ok o d' ∧ d'.Able e.loanId n ∧
      d'.session.tables.entries = d.session.tables.entries := by
  obtain ⟨o, d₁, hu, near, h₁, hentries, hrows⟩ := moved_roomy h.toRoomy hl hk state
  exact ⟨o, d₁, hu, ⟨h₁, h.fresh.of_names near.names, h.issued.mono near.names near.used hrows⟩, hentries⟩

/-- Neither the actions of a transition nor its move take a key. -/
theorem key_moved {rs : List ActionResult} {d' : Desk} (hacts : t.actions.mapM (g.doAction e l.state t) d = .ok rs d₁)
    (hentries : d'.session.tables.entries = d₁.session.tables.entries) (key : String) :
    d'.session.tables.entryByKey? key = d.session.tables.entryByKey? key := by
  rw [entryByKey?_of_entries hentries, (actions_ok hacts).entryByKey?]

/-- A transition is taken: its actions are done, the loan is moved, and the move recorded. -/
theorem take_calm (h : d.Able e.loanId (t.actions.length + (n + 1))) (ht : e.IsTimely)
    (hl : d.session.tables.loan? e.loanId = some l)
    (hk : d.session.known.loans.find? (·.loanId = e.loanId) = some l)
    (he : d.session.tables.entryByKey? e.key = none) :
    ∃ rs d', g.take e l.state t d = .ok (.applied l.state t.to rs) d' ∧ d'.Able e.loanId n := by
  obtain ⟨rs, d₁, hacts, o₁, h₁⟩ := (actions_goes (g := g) l.state t ht h.toRoomy).able h
  obtain ⟨o, d₂, hu, h₂, hentries⟩ :=
    moved_calm h₁ ((loan?_of_loans (actions_ok hacts).loans e.loanId).trans hl)
      (by rw [o₁.loans]; exact hk) t.to
  obtain ⟨x, d₃, ha, -, -, h₃⟩ := h₂.append (transitionRecord_isSound ht l.state t.to) fun key hkey => by
    cases hkey
    rw [key_moved hacts hentries, he]
  exact ⟨rs, d₃, (Work.bind_of_ok hacts).trans ((Work.bind_of_ok hu).trans ((Work.bind_of_ok ha).trans
    ((checked_calm h₃.toIsCalm e _ _).trans rfl))), h₃⟩

/-- A transition whose key is recorded is done once more and then rejected as a duplicate, unless ids that its actions
draw clash. -/
theorem take_recorded (h : d.Roomy e.loanId (t.actions.length + 1)) (ht : e.IsTimely)
    (hl : d.session.tables.loan? e.loanId = some l)
    (hk : d.session.known.loans.find? (·.loanId = e.loanId) = some l)
    (he : d.session.tables.entryByKey? e.key = some entry) :
    ∃ err d', g.take e l.state t d = .error err d' ∧
      (err = .failure (.duplicateTransition e.loanId e.key) ∨
        err = .failure (.ledgerUnavailable "create_disbursement") ∧
          d.ids.Clashes t.actions.length d'.ids d.session.tables) := by
  have acted := actions_goes (g := g) l.state t ht h
  generalize hacts : t.actions.mapM (g.doAction e l.state t) d = r at acted
  cases acted with
  | @ok rs d₁ drew h₁ =>
    have known : d₁.session.known.loans.find? (·.loanId = e.loanId) = some l := drew.loans ▸ hk
    have row := (loan?_of_loans (actions_ok hacts).loans e.loanId).trans hl
    obtain ⟨o, d₂, hu, -, h₂, hentries, -⟩ := moved_roomy h₁ row known t.to
    obtain ⟨d₃, ha⟩ := AuditLog.append_recorded h₂.toIsReady h₂.isTimely h₂.chained h₂.room
      (transitionRecord_isSound ht l.state t.to) rfl ((key_moved hacts hentries e.key).trans he)
    exact ⟨_, d₃, (Work.bind_of_ok hacts).trans ((Work.bind_of_ok hu).trans (Work.bind_of_error ha)), .inl rfl⟩
  | taken hc => exact ⟨_, _, Work.bind_of_error hacts, .inr ⟨rfl, hc⟩⟩

theorem weigh_applied (h : d.Able e.loanId (t.actions.length + (n + 1))) (hk : d.session.known.entries = [])
    (ht : e.IsTimely) (hl : d.session.tables.loan? e.loanId = some l) (hs : g.definition.find? l.state = some s)
    (he : d.session.tables.entryByKey? e.key = none) (hn : s.find? e.type = some t) :
    ∃ rs d', g.weigh e d = .ok (.inr (.applied l.state t.to rs)) d' ∧ d'.Able e.loanId n := by
  have h₁ : (Loans.knowing d l).Able e.loanId (t.actions.length + (n + 1)) := h.same (Frame.know d _) h.sound rfl
  obtain ⟨rs, d₂, htake, h₂⟩ := take_calm (g := g) h₁ ht hl (knowing_known hl) he
  rw [weigh_new h.toIsReady hk hl hs he, hn]
  exact ⟨rs, d₂, Work.map_of_ok htake, h₂⟩

end Weighing

/-! ## Decisions -/

theorem decide_recorded {entry : Entry} {a b : String} (hw : g.weigh e d = .ok (.inl entry) d₁)
    (hm : entry.move? = some (a, b)) :
    ∃ d', g.decide_ e d = .ok (.duplicate (.text a) (.text b)) d' ∧ d'.store = d₁.store := by
  obtain ⟨d', hd, hs⟩ := duplicateOf_calm (e := e) d₁ hm
  exact ⟨d', (Work.bind_of_ok hw).trans hd, hs⟩

theorem decide_done {c : Decision} (hw : g.weigh e d = .ok (.inr c) d₁) (h₁ : d₁.IsReady) :
    g.decide_ e d = .ok c d₁.committed :=
  (Work.bind_of_ok hw).trans ((Work.bind_of_ok (guarded_of_ok (commit_calm h₁))).trans rfl)

end Engine

end LoanLedger
