import LoanLedger.Ledger.Database
import LoanLedger.Proofs.Atomic
import LoanLedger.Proofs.Blind

/-!
# Trying again

* `FailedAttempts g e d d₁` : attempts at an event, each at its own time and disturbed in its own way,
  failed one after the other and led from the desk `d` to `d₁`;
* `FailedAttempts.retry` : an undisturbed attempt after them goes as it would have gone without them, but
  for the ids that they used up;
* `all_or_nothing` : this, and that every call and every block is settled.
-/

namespace LoanLedger.Engine

open Ledger

variable {α β : Type} {x y : Work α} {a : α} {d d' d₁ d₂ : Desk} {g : Engine} {e : Event}

inductive FailedAttempts (g : Engine) (e : Event) : Desk → Desk → Prop where
  | none (d : Desk) : FailedAttempts g e d d
  | more {d d₁ d₂ : Desk} (clock : Clock) (x : Disturbance) (err : Ledger.Error) :
    FailedAttempts g e d d₁ → (d₁.prepared clock x).IsHonest →
      g.handle e (d₁.prepared clock x) = .error err d₂ → FailedAttempts g e d d₂

/-! ## What failed attempts leave -/

/-- All is the same that an undisturbed attempt finds, but for the ids. -/
structure Unmoved (d d₁ : Desk) : Prop where
  store : d₁.store = d.store
  locks : d₁.locks = d.locks
  setup : d₁.setup = d.setup
  context : d₁.context = d.context
  guarded : d₁.isGuarded = d.isGuarded
  names : d₁.ids.names = d.ids.names

theorem handle_error_store {err : Ledger.Error} (hd : d.IsHonest) (h : g.handle e d = .error err d') :
    d'.store = d.store := by
  have hs := serve_settled g (.handle e) hd
  rw [show g.serve (.handle e) d = .error err d' from Work.map_of_error h] at hs
  cases hs with
  | failed h => exact h

theorem FailedAttempts.unmoved (h : FailedAttempts g e d d₁) : Unmoved d d₁ := by
  induction h with
  | none => exact ⟨rfl, rfl, rfl, rfl, rfl, rfl⟩
  | @more d₁ d₂ clock x err _ hx he ih =>
    have beside : (d₁.prepared clock x).Beside d₂ := Keeps.error he
    exact {
      store := (handle_error_store hx he).trans ih.store
      locks := beside.locks.trans ih.locks
      setup := beside.setup.trans ih.setup
      context := beside.context.trans ih.context
      guarded := beside.guarded.trans ih.guarded
      names := beside.names.trans ih.names }

/-! ## The session from before -/

/-- Under the lock an undisturbed attempt starts with a session of its own. -/
theorem locked_session (hd : d.IsCalm) (s : Session) (stage : String) :
    (do checkCancelled e stage; g.apply e : Work Decision) { d with session := s } =
      (do checkCancelled e stage; g.apply e : Work Decision) d := by
  have hd' : Desk.IsCalm { d with session := s } := ⟨hd.faults, hd.rival, hd.checks⟩
  rw [checked_calm hd, checked_calm hd']
  rfl

theorem withLock_session {loanId : String} {timeout : Value} {x : Work α} {s : Session}
    (hl : (d.locks.hold loanId timeout).2 = .ok ())
    (hx : x { d.held loanId timeout with session := s } = x (d.held loanId timeout)) :
    withLock loanId timeout x { d with session := s } = withLock loanId timeout x d := by
  cases hr : x (d.held loanId timeout) with
  | ok c d₁ =>
    rw [withLock_of_ok hl hr]
    exact withLock_of_ok (d := { d with session := s }) hl (hx.trans hr)
  | error e d₁ =>
    rw [withLock_of_error hl hr]
    exact withLock_of_error (d := { d with session := s }) hl (hx.trans hr)

/-! ## Locks that are refused -/

theorem lockFailed_run (loanId : String) (timeout : Value) (r : Locks.Error) :
    ∃ err, ∀ d, ∃ log, (lockFailed loanId timeout r : Work α) d = .error err { d with log } := by
  cases r with
  | timedOut =>
    refine ⟨.failure (.lockTimeout loanId timeout), fun d => ?_⟩
    obtain ⟨log, hr⟩ := emit_run .warning "services.loan_locks" "loan_lock_timeout"
      [("loan_id", .text loanId), ("timeout_seconds", timeout)] d
    exact ⟨log, Work.bind_of_ok hr⟩
  | stuck => exact ⟨.stuck, fun d => ⟨d.log, rfl⟩⟩
  | patience p => exact ⟨.patience p, fun d => ⟨d.log, rfl⟩⟩

theorem handle_refused (g : Engine) (e : Event) (r : Locks.Error) :
    ∃ err, ∀ d : Desk, (d.locks.hold e.loanId g.lockTimeout).2 = .error r →
      ∃ log, g.handle e d = .error err { d with log } := by
  obtain ⟨err, hf⟩ := lockFailed_run (α := Decision) e.loanId g.lockTimeout r
  refine ⟨err, fun d hl => ?_⟩
  obtain ⟨log, hd⟩ := hf (d.bound (eventContext e))
  obtain ⟨log', hn⟩ := noteFailure_run g e err { d.bound (eventContext e) with log }
  refine ⟨log', withContext_of_error
    (show _ = EStateM.Result.error err { d.bound (eventContext e) with log := log' } from ?_)⟩
  refine Work.bind_of_error ?_
  rw [Work.recover_of_error ((withLock_refused (d := d.bound (eventContext e)) hl).trans hd), Work.bind_of_ok hn]
  rfl

/-! ## Attempts that end in the same way -/

/-- At both desks the work is answered in the same way, and the same is committed and used up. -/
structure SameEnd (x : Work α) (d d' : Desk) : Prop where
  answer : x.answer d' = x.answer d
  store : (x.desk d').store = (x.desk d).store
  ids : (x.desk d').ids = (x.desk d).ids

theorem SameEnd.of_error {e : Ledger.Error} (h : x d = .error e d₁) (h' : x d' = .error e d₂)
    (hs : d₂.store = d₁.store) (hi : d₂.ids = d₁.ids) : SameEnd x d d' :=
  ⟨by rw [Work.answer, Work.answer, h, h'], by rw [Work.desk_of_error h, Work.desk_of_error h', hs],
    by rw [Work.desk_of_error h, Work.desk_of_error h', hi]⟩

theorem SameEnd.of_agree (h : Agree (x d) (x d')) : SameEnd x d d' := by
  generalize hr : x d = r, hr' : x d' = r' at h
  cases h with
  | ok a h =>
    obtain ⟨log, rfl⟩ := h
    exact ⟨by rw [Work.answer, Work.answer, hr, hr'], by rw [Work.desk_of_ok hr, Work.desk_of_ok hr'],
      by rw [Work.desk_of_ok hr, Work.desk_of_ok hr']⟩
  | error e h =>
    obtain ⟨log, rfl⟩ := h
    exact .of_error hr hr' rfl rfl

theorem SameEnd.of_eq (h : x d' = x d) : SameEnd x d d' :=
  ⟨by rw [Work.answer, Work.answer, h], by rw [Work.desk, Work.desk, h], by rw [Work.desk, Work.desk, h]⟩

theorem SameEnd.trans (h : SameEnd x d d₁) (h' : SameEnd x d₁ d₂) : SameEnd x d d₂ :=
  ⟨h'.answer.trans h.answer, h'.store.trans h.store, h'.ids.trans h.ids⟩

theorem SameEnd.map (f : α → β) (h : SameEnd x d d') : SameEnd (f <$> x) d d' where
  answer := by rw [Work.answer_map, Work.answer_map, h.answer]
  store := by rw [Work.desk_map, Work.desk_map, h.store]
  ids := by rw [Work.desk_map, Work.desk_map, h.ids]

theorem SameEnd.log [h : Holds Blind x] (log : List Noted) : SameEnd x d { d with log } :=
  .of_agree (h.holds d _ ⟨log, rfl⟩)

theorem handle_session (hd : d.IsCalm) (s : Session) : SameEnd (g.handle e) d { d with session := s } := by
  cases hl : (d.locks.hold e.loanId g.lockTimeout).2 with
  | error r =>
    obtain ⟨err, hr⟩ := handle_refused g e r
    obtain ⟨log, h⟩ := hr d hl
    obtain ⟨log', h'⟩ := hr { d with session := s } hl
    exact .of_error h h' rfl rfl
  | ok u =>
    refine .of_eq ?_
    have calm : ((d.bound (eventContext e)).held e.loanId g.lockTimeout).IsCalm := ⟨hd.faults, hd.rival, hd.checks⟩
    have hw :=
      withLock_session (d := d.bound (eventContext e)) hl (locked_session (g := g) (e := e) calm s "lock_acquired")
    exact withContext_congr rfl (Work.bind_congr (Work.recover_congr hw))

/-- An undisturbed attempt after attempts that failed goes as it would have gone without them, but for
the ids that they used up. -/
theorem FailedAttempts.retry (h : FailedAttempts g e d d₁) (clock : Clock) :
    SameEnd (g.handle e) ({ d with ids := d₁.ids }.prepared clock .none) (d₁.prepared clock .none) := by
  have hu := h.unmoved
  have hd : d₁.prepared clock .none =
      { { d with ids := d₁.ids }.prepared clock .none with session := d₁.session, log := d₁.log } := by
    obtain ⟨store, session, _, locks, setup, context, log, ids, guarded, _, _, _⟩ := d₁
    obtain ⟨rfl, rfl, rfl, rfl, rfl, -⟩ := hu
    rfl
  rw [hd]
  exact .trans (handle_session ⟨rfl, rfl, rfl⟩ d₁.session) (.log d₁.log)

/-- All or nothing: whatever disturbs a call of the engine or a block in a transaction of its own, the
committed rows are those from before or those of the whole work; and an undisturbed attempt at an event
after any number of failed ones goes as it would have gone without them, but for the ids that they used
up. -/
theorem all_or_nothing :
    (∀ (g : Engine) (c : Call) (d : Desk), d.IsHonest →
      Settled (g.work c) Answer.isDuplicate d (g.serve c d)) ∧
    (∀ (α : Type) (b : Block α) (d : Desk), d.IsHonest →
      Settled (some <$> b.run) (fun _ => false) d (scope b.run d)) ∧
    (∀ (g : Engine) (e : Event) (d d₁ : Desk) (clock : Clock), FailedAttempts g e d d₁ →
      SameEnd (g.handle e) ({ d with ids := d₁.ids }.prepared clock .none) (d₁.prepared clock .none)) :=
  ⟨fun g c _ hd => serve_settled g c hd, fun _ b _ hd => scope_settled b hd,
    fun _ _ _ _ clock h => h.retry clock⟩

/-- An engine under a definition with one state and no way out. -/
def still : Engine where
  definition := ⟨"still", 1, "open", [⟨"open", [], ""⟩], "", ""⟩
  dispatcher := .standard
  lockTimeout := .null

theorem defaultStart_isAware : Clock.defaultStart.isAware = true := rfl

/-- An event that nobody waits for. -/
def knock : Event where
  type := "knock"
  loanId := "L1"
  founderId := "F1"
  occurredAt := Clock.defaultStart
  payload := []
  actor := systemActor
  eventId := some "1"
  isAware := defaultStart_isAware

/-- Another event of the same type. -/
def knockAgain : Event := { knock with eventId := some "2" }

/-- A ledger without rows, at noon. -/
def noon : Desk := .of .empty (.startAt Clock.defaultStart)

def outage : Disturbance := ⟨[⟨.commit, .fail none (.storage .outage), 0⟩], false, none⟩

/-- The work counts as cancelled from the start. -/
def cancelled : Disturbance := ⟨[], false, some 0⟩

theorem outage_isHonest {d : Desk} : (d.prepared noon.clock outage).IsHonest := by
  intro p n h
  simp [Desk.plan, Desk.prepared, outage, Fault.plan] at h

theorem cancelled_isHonest : (noon.prepared noon.clock cancelled).IsHonest := by
  intro p n h
  simp [Desk.plan, Desk.prepared, cancelled] at h

/-- An engine under a definition that leads to and fro, with a request on each way. -/
def revolving : Engine where
  definition := ⟨"revolving", 1, "open", [⟨"open", [⟨"knock", "shut", [.ofTrigger "DISBURSEMENT_1"]⟩], ""⟩,
    ⟨"shut", [⟨"knock", "open", [.ofTrigger "DISBURSEMENT_2"]⟩], ""⟩], "", ""⟩
  dispatcher := .standard
  lockTimeout := .null

def openedOnce : Desk := noon.after [⟨noon.clock, .none, .call revolving (.open_ "L1" "F1" systemActor)⟩]

/-- A loan is opened, and an event shuts it. -/
def shutOnce : List Turn :=
  [⟨noon.clock, .none, .call revolving (.open_ "L1" "F1" systemActor)⟩,
    ⟨noon.clock, .none, .call revolving (.handle knock)⟩]

/-- The storage fails when the state of a loan is to be written. -/
def halfway : Disturbance := ⟨[⟨.updateState, .fail none (.storage .outage), 0⟩], false, none⟩

def numberedOpening : Block Unit :=
  .step (.nextNumber "n") fun _ => .step (.openLoan "L2" "F1" revolving.definition systemActor) fun _ => .done ()

theorem halfway_isHonest (d : Desk) : (d.prepared noon.clock halfway).IsHonest := by
  intro p n h
  simp [Desk.plan, Desk.prepared, halfway, Fault.plan] at h

/-- The event that shuts the loan fails after its tranche was requested. -/
theorem knock_fails :
    ∃ err d₁, revolving.handle knock (openedOnce.prepared noon.clock halfway) = .error err d₁ ∧
      d₁.ids.used = 1 ∧ d₁.store.disbursements = [] := by
  have failed : ((revolving.handle knock).answer (openedOnce.prepared noon.clock halfway)).toBool = false ∧
      ((revolving.handle knock).desk (openedOnce.prepared noon.clock halfway)).ids.used = 1 ∧
      ((revolving.handle knock).desk (openedOnce.prepared noon.clock halfway)).store.disbursements = [] := by
    decide +kernel
  obtain ⟨fails, used, kept⟩ := failed
  cases hr : revolving.handle knock (openedOnce.prepared noon.clock halfway) with
  | ok o d₁ =>
    rw [Work.answer_of_ok hr] at fails
    cases fails
  | error err d₁ =>
    rw [Work.desk_of_error hr] at used kept
    exact ⟨err, d₁, rfl, used, kept⟩

/-- A call fails in the middle of its transaction, a block at its commit; and an event is handled again after the call
for it failed in the middle. -/
theorem all_or_nothing_at_noon :
    Settled (revolving.work (.handle knock)) Answer.isDuplicate (openedOnce.prepared noon.clock halfway)
      (revolving.serve (.handle knock) (openedOnce.prepared noon.clock halfway)) ∧
    Settled (some <$> numberedOpening.run) (fun _ => false) (openedOnce.prepared noon.clock outage)
      (scope numberedOpening.run (openedOnce.prepared noon.clock outage)) ∧
    ∃ d₁, FailedAttempts revolving knock openedOnce d₁ ∧ d₁.ids.used = 1 ∧ d₁.store.disbursements = [] ∧
      SameEnd (revolving.handle knock) ({ openedOnce with ids := d₁.ids }.prepared noon.clock .none)
        (d₁.prepared noon.clock .none) := by
  obtain ⟨err, d₁, h, used, kept⟩ := knock_fails
  have failed : FailedAttempts revolving knock openedOnce d₁ :=
    .more noon.clock halfway err (.none openedOnce) (halfway_isHonest openedOnce) h
  exact ⟨all_or_nothing.1 revolving (.handle knock) _ (halfway_isHonest openedOnce),
    all_or_nothing.2.1 Unit numberedOpening _ outage_isHonest, d₁, failed, used, kept,
    all_or_nothing.2.2 revolving knock openedOnce d₁ noon.clock failed⟩

end LoanLedger.Engine
