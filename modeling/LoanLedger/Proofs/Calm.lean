import LoanLedger.Proofs.Statement
import LoanLedger.Engine.Run

/-!
# Work that nothing disturbs

* `Desk.IsReady d` : nothing disturbs the work, and no statement of the session was refused;
* `call_calm`, `statement_calm`, `query_calm`, `change_calm`, `savepoint_calm`, … : there a call is done, a
  query tells what the rows are, a change is made unless the change itself is refused;
* `ask_calm`, `findTransition_calm` : entries are found as the rows say;
* `scope_calm` : and work in a transaction of its own is committed when it goes well.
-/

namespace LoanLedger.Ledger

variable {α : Type} {x y : Work α} {a : α} {d d₁ : Desk} {e : Error}

/-- Nothing disturbs the work, and no statement of the session was refused. -/
structure Desk.IsReady (d : Desk) : Prop extends Desk.IsCalm d where
  sound : d.session.isBroken = false

theorem Desk.Beside.faults (h : d.Beside d₁) (hd : d.faults = []) : d₁.faults = [] := by
  have hp := h.plan
  rw [Desk.plan, Desk.plan, hd, List.map_nil, List.map_eq_nil_iff] at hp
  exact hp

theorem Desk.Beside.isCalm (h : d.Beside d₁) (hd : d.IsCalm) : d₁.IsCalm where
  faults := h.faults hd.faults
  rival := h.rival.trans hd.rival
  checks := h.checks hd.checks

def Desk.withTables (d : Desk) (t : Tables) : Desk :=
  { d with session := { d.session with tables := t } }

theorem Desk.passed_faultless (h : d.faults = []) (p : Point) : d.passed p = d := by
  obtain ⟨store, session, clock, locks, setup, context, log, ids, guarded, faults, rival, checks⟩ := d
  obtain rfl : faults = [] := h
  rfl

/-! ## Calls and statements -/

theorem call_faultless (h : d.faults = []) (p : Point) (missed : α) (x : Work α) : call p missed x d = x d := by
  rw [call_run, h]
  dsimp only [judge_nil]
  rw [Desk.passed_faultless h]

theorem call_calm (h : d.IsCalm) (p : Point) (missed : α) (x : Work α) : call p missed x d = x d :=
  call_faultless h.faults p missed x

theorem guarded_of_ok {operation : String} (h : x d = .ok a d₁) : guarded operation x d = .ok a d₁ :=
  Work.recover_of_ok h

theorem statement_calm (h : d.IsReady) : statement d = .ok () d := by
  unfold statement
  rw [Work.bind_of_ok (Work.session_run d), h.sound, if_neg (by decide)]
  exact call_calm h.toIsCalm .statement () (pure ())

theorem query_calm (h : d.IsReady) (g : Tables → α) : query g d = .ok (g d.session.tables) d := by
  unfold query
  rw [Work.bind_of_ok (statement_calm h)]
  rfl

theorem change_calm {g : Tables → Except Error Tables} {t : Tables} (h : d.IsReady)
    (hg : g d.session.tables = .ok t) : change g d = .ok () (d.withTables t) := by
  refine Work.recover_of_ok ?_
  rw [Work.bind_of_ok (statement_calm h), Work.bind_of_ok (Work.session_run d), hg]
  rfl

/-- The desk whose session can only be taken back. -/
def Desk.broken (d : Desk) : Desk :=
  { d with session := { d.session with isBroken := true } }

theorem change_refused {g : Tables → Except Error Tables} (h : d.IsReady) (hg : g d.session.tables = .error e) :
    change g d = .error e d.broken := by
  have broken : breakSession d = .ok () d.broken := rfl
  refine (Work.recover_of_error ?_).trans (Work.bind_of_ok broken)
  rw [Work.bind_of_ok (statement_calm h), Work.bind_of_ok (Work.session_run d), hg]
  rfl

theorem insert_calm {g : Tables → Option Tables} {t : Tables} (h : d.IsReady)
    (hg : g d.session.tables = some t) : insert g d = .ok () (d.withTables t) :=
  change_calm h (by rw [hg])

theorem savepoint_calm (h : d.IsReady) (hx : x d = .ok a d₁) (h₁ : d₁.IsReady) :
    savepoint x y d = .ok a d₁ :=
  savepoint_of_ok (statement_calm h) ((Work.bind_of_ok hx).trans (Work.bind_of_ok (statement_calm h₁)))

/-- Work whose unique key was taken is taken back, and the other work is done. -/
theorem savepoint_taken (h : d.IsReady) (hx : x d = .error (.storage .conflict) d₁) :
    savepoint x y d = y { d₁ with session := d.session } :=
  savepoint_of_conflict (statement_calm h) (Work.bind_of_error hx)

/-! ## Checks and times -/

theorem checkPasses_calm (h : d.IsCalm) : checkPasses d = .ok true d := by
  change EStateM.Result.ok _ _ = _
  rw [h.checks]

theorem checkCancelled_calm (h : d.IsCalm) (e : Event) (stage : String) :
    Engine.checkCancelled e stage d = .ok () d := by
  unfold Engine.checkCancelled
  rw [call_calm h, Work.bind_of_ok (checkPasses_calm h)]
  rfl

theorem checked_calm (h : d.IsCalm) (e : Event) (stage : String) (x : Work α) :
    (do Engine.checkCancelled e stage; x : Work α) d = x d :=
  Work.bind_of_ok (checkCancelled_calm h e stage)

theorem noteFailure_run (g : Engine) (e : Event) (x : Error) (d : Desk) :
    ∃ log, g.noteFailure e x d = .ok () { d with log } := by
  unfold Engine.noteFailure
  cases x with
  | failure f => exact emit_run _ _ _ _ d
  | _ => exact ⟨d.log, rfl⟩

/-! ## Entries -/

theorem recalled_fresh {k : Known} (h : k.entries = []) (es : List Entry) : es.map (AuditLog.recalled k) = es := by
  have hr : AuditLog.recalled k = id := by
    funext e
    rw [AuditLog.recalled, h]
    rfl
  rw [hr, List.map_id]

theorem ask_calm (h : d.IsReady) (hk : d.session.known.entries = []) (f : Tables → List Entry) :
    AuditLog.ask f d = .ok (f d.session.tables) d := by
  unfold AuditLog.ask
  rw [Work.bind_of_ok (query_calm h _), Work.bind_of_ok (Work.session_run d), recalled_fresh hk]
  rfl

theorem ask_ok {f : Tables → List Entry} {es : List Entry} (hk : d.session.known.entries = [])
    (h : AuditLog.ask f d = .ok es d₁) : es = f d.session.tables := by
  unfold AuditLog.ask at h
  obtain ⟨rows, d₂, hq, h⟩ := Work.bind_ok h
  obtain ⟨rfl, hs⟩ := query_ok hq
  obtain ⟨s, d₃, hg, h⟩ := Work.bind_ok h
  cases hg
  cases h
  exact recalled_fresh (hs ▸ hk) _

theorem findTransition_calm (h : d.IsReady) (hk : d.session.known.entries = []) (key : String) :
    AuditLog.findTransition key d = .ok (d.session.tables.entryByKey? key) d := by
  refine (call_calm h.toIsCalm _ _ _).trans (guarded_of_ok ((Work.bind_of_ok (ask_calm h hk _)).trans ?_))
  rw [Option.head?_toList]
  rfl

/-! ## Transactions -/

theorem commit_calm (h : d.IsReady) : commit d = .ok () d.committed := by
  unfold commit
  rw [call_calm h.toIsCalm, Work.bind_of_ok (Work.session_run d), h.sound, if_neg (by decide)]
  rfl

theorem start_run (d : Desk) : ∃ log, start d = .ok () { d with session := .of d.store, log } := by
  obtain ⟨log, hr⟩ := emit_run .debug "db.engine" "transaction_started" [] { d with session := .of d.store }
  refine ⟨log, ?_⟩
  unfold start
  rw [Work.bind_of_ok (show begin d = .ok () _ from rfl), hr]

/-- Work in a transaction of its own went well when the transaction did. -/
theorem scope_ok {d' : Desk} (h : scope x d = .ok a d') :
    ∃ log d₁, x { d with session := .of d.store, log } = .ok a d₁ := by
  obtain ⟨log, hs⟩ := start_run d
  unfold scope at h
  rw [Work.bind_of_ok hs] at h
  obtain ⟨r, d₁, hr, h⟩ := Work.bind_ok h
  have ended : r = .ok a := by
    rcases Work.recover_ok h with h | ⟨e, d₂, -, h⟩
    · obtain ⟨b, d₂, hb, h⟩ := Work.bind_ok h
      obtain ⟨_, _, -, h⟩ := Work.bind_ok h
      obtain ⟨_, _, -, h⟩ := Work.bind_ok h
      cases h
      exact (Work.ofExcept_run_ok hb).1
    · obtain ⟨_, _, -, h⟩ := Work.bind_ok h
      obtain ⟨_, _, -, h⟩ := Work.bind_ok h
      cases h
  rcases Work.attempt_ok hr with ⟨b, hb, hx⟩ | ⟨e, he, -⟩
  · cases hb.symm.trans ended
    exact ⟨log, d₁, hx⟩
  · cases he.symm.trans ended

/-- Work in a transaction of its own that goes well leaves the rows of its session. -/
theorem scope_of_ok (hx : x (start.desk d) = .ok a d₁) (h₁ : d₁.IsReady) :
    ∃ d', scope x d = .ok a d' ∧ d'.store = d₁.session.tables := by
  obtain ⟨log, hs⟩ := start_run d
  rw [Work.desk_of_ok hs] at hx
  obtain ⟨log', hr⟩ := emit_run .debug "db.engine" "transaction_committed" [] d₁.committed
  refine ⟨{ d₁.committed with log := log' }, ?_, rfl⟩
  unfold scope
  rw [Work.bind_of_ok hs, Work.bind_of_ok (Work.attempt_of_ok hx)]
  refine Work.recover_of_ok ?_
  rw [Work.ofExcept_ok, Work.bind_of_ok (Work.pure_run a d₁), Work.bind_of_ok (commit_calm h₁), Work.bind_of_ok hr]
  rfl

/-- Work in a transaction of its own is committed when it goes well. -/
theorem scope_calm (hx : ∀ log, ∃ d₁, x { d with session := .of d.store, log } = .ok a d₁ ∧ d₁.IsReady) :
    ∃ d', scope x d = .ok a d' := by
  obtain ⟨log, hs⟩ := start_run d
  obtain ⟨d₁, hx, h₁⟩ := hx log
  rw [← Work.desk_of_ok hs] at hx
  obtain ⟨d', hr, -⟩ := scope_of_ok hx h₁
  exact ⟨d', hr⟩

end LoanLedger.Ledger
