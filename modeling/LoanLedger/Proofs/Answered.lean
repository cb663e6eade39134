import LoanLedger.Event.Reader
import LoanLedger.Proofs.Once
import LoanLedger.Proofs.Tame.Events
import LoanLedger.Proofs.Untimely

/-!
# Every event is answered

* `Traced g e d r` : the trace that an event leaves, by how it ended: one with its outcome, one with its failure, or
  none where it ended in another way;
* `handle_traced` : whatever disturbs it, every event is traced so;
* `Escapes g e clock t c` : an event can end of the cause `c`, which is no failure of the ledger or the workflow;
* `events_answered` : after any run of calls every event without faults is answered or fails, and is traced once, or it
  escapes;
* `early_unanswered` : an event can be read that escapes.
-/

namespace LoanLedger.Engine

open Ledger Workflow

variable {d d' : Desk} {g : Engine} {e : Event} {o : Outcome} {err : Ledger.Error}

/-! ## Traces -/

def traceOf (e : Event) (d : Desk) (level : Log.Level) (fields : List (String × Value)) : List Noted :=
  if d.setup.passes level then
    [⟨⟨level, "services.workflow_engine", "workflow_transition", fields, none⟩,
      (d.bound (eventContext e)).context⟩]
  else []

/-- The trace that an event leaves, by how it ended. -/
inductive Traced (g : Engine) (e : Event) (d : Desk) : EStateM.Result Ledger.Error Desk Outcome → Prop where
  | answered {o : Outcome} {d' : Desk} :
    (o.trace g.definition e).lookup "outcome" = some (.text o.decision.word) →
    d'.traces = d.traces ++ traceOf e d .info (o.trace g.definition e) → Traced g e d (.ok o d')
  | failed {f : Failure} {d' : Desk} :
    (failureTrace g.definition e f).lookup "outcome" = some (.text "failed") →
    (failureTrace g.definition e f).lookup "error_code" = some (.text f.kind.code) →
    d'.traces = d.traces ++ traceOf e d .warning (failureTrace g.definition e f) →
    Traced g e d (.error (.failure f) d')
  | untold {err : Ledger.Error} {d' : Desk} :
    err.isKernel = false → d'.traces = d.traces → Traced g e d (.error err d')

theorem emit_traces {l : Log.Level} {fs : List (String × Value)} {u : Unit}
    (h : emit l "services.workflow_engine" "workflow_transition" fs d = .ok u d') :
    d'.traces = d.traces ++ if d.setup.passes l then
      [⟨⟨l, "services.workflow_engine", "workflow_transition", fs, none⟩, d.context⟩] else [] := by
  have done : EStateM.Result.ok u d' = .ok () (if d.setup.passes l then { d with log := d.log ++
      [⟨⟨l, "services.workflow_engine", "workflow_transition", fs, none⟩, d.context⟩] } else d) := h.symm
  cases done
  by_cases hp : d.setup.passes l
  · simp [Desk.traces, hp]
  · simp [hp]

theorem emit_traceOf {l : Log.Level} {fs : List (String × Value)} {d₁ d₂ : Desk} {u : Unit}
    (hq : (d.bound (eventContext e)).Quiet d₁)
    (h : emit l "services.workflow_engine" "workflow_transition" fs d₁ = .ok u d₂) :
    d₂.traces = d.traces ++ traceOf e d l fs := by
  have told := emit_traces h
  rw [hq.traces, hq.setup, hq.context] at told
  exact told

/-- Whatever disturbs it, every event is traced by how it ended. -/
theorem handle_traced (g : Engine) (e : Event) (d : Desk) : Traced g e d (g.handle e d) := by
  cases h : g.handle e d with
  | ok o d' =>
    obtain ⟨c, d₁, d₂, hl, -, hn, rfl⟩ := handle_ok h
    have told : d₂.traces = _ := emit_traceOf ((locked_tame g e).quiet.ok hl) hn
    exact .answered rfl told
  | error err d' =>
    obtain ⟨d₁, d₂, hl, hn, rfl⟩ := handle_error h
    have quiet := (locked_tame g e).quiet.error hl
    cases err with
    | failure f =>
      have told : d₂.traces = _ := emit_traceOf quiet hn
      exact .failed rfl rfl told
    | _ =>
      cases hn
      exact .untold rfl quiet.traces

/-! ## Escapes -/

/-- An event can end of the cause, which is no failure of the ledger or the workflow: a time is not known in UTC, the
log has no room, or the engine was given a time that no lock can be waited for. -/
inductive Escapes (g : Engine) (e : Event) (clock : Clock) (t : Tables) : Cause → Prop where
  | event : ¬ e.IsTimely → Escapes g e clock t .calendar
  | clock {c : Cause} : ¬ clock.IsTimely → c = .clock ∨ c = .calendar → Escapes g e clock t c
  | full : ¬ t.HasRoom e.loanId (mostActions g.definition + 1) → Escapes g e clock t .tooLarge
  | patience {r : PatienceError} : Patience.ofValue? g.lockTimeout = .error r → Escapes g e clock t .patience

/-- Where no lock is held and logs are chained and keyed, an event without faults fails as the ledger or the workflow
does, or escapes. -/
theorem handle_escapes (hf : d.faults = []) (hl : d.locks = .empty) (hc : Chained d.store) (hk : Keyed d.store)
    (h : g.handle e d = .error err d') : err.isKernel = true ∨ Escapes g e d.clock d.store err.cause := by
  obtain ⟨d₁, -, hlocked, -⟩ := handle_error h
  have timely : e.IsTimely ∨ Escapes g e d.clock d.store .calendar := (Classical.em _).imp_right .event
  have clocked : d.Clocked (Escapes g e d.clock d.store) :=
    (Classical.em _).imp_right fun hn => ⟨.clock hn (.inl rfl), .clock hn (.inr rfl)⟩
  have room : d.store.HasRoom e.loanId (mostActions g.definition + 1) ∨ Escapes g e d.clock d.store .tooLarge :=
    (Classical.em _).imp_right .full
  exact (locked_leaks timely fun _ => .patience).error (d := d.bound (eventContext e)) hf
    ⟨hl, clocked, ⟨hc, room⟩, hk⟩ hlocked

/-! ## Runs -/

/-- Every event is answered and traced once. After any run of calls, however they were disturbed, an event without
faults ends with its outcome or with a failure of the ledger or the workflow, and leaves one trace that says so;
otherwise it escapes, and leaves none. -/
theorem events_answered (d : Desk) (ts : List Turn) (hd : d.IsNew) (hts : ∀ y ∈ ts, y.IsCall)
    (g : Engine) (e : Event) (clock : Clock) (z : Disturbance) (hz : z.faults = []) :
    Traced g e ((d.after ts).prepared clock z) (g.handle e ((d.after ts).prepared clock z)) ∧
    ∀ err, (g.handle e).answer ((d.after ts).prepared clock z) = .error err →
      err.isKernel = true ∨ Escapes g e clock (d.after ts).store err.cause := by
  have any : ∀ y ∈ ts, y.IsCallOf fun _ => True := fun y hy => (hts y hy).any
  have chained : Chained (d.after ts).store := run_keeps (fun _ hP ht => hP.told ht) any (hd.store ▸ chained_empty)
  have keyed : Keyed (d.after ts).store := run_keeps (fun _ hP ht => hP.told ht) any (hd.store ▸ keyed_empty)
  have locks : (d.after ts).locks = .empty := (after_locks hts).trans hd.locks
  refine ⟨handle_traced g e _, fun err h => ?_⟩
  obtain ⟨d', h⟩ := Work.error_of_answer h
  exact handle_escapes (d := (d.after ts).prepared clock z) hz locks chained keyed h

theorem openedAtNoon_isCall : ∀ y ∈ openedAtNoon, y.IsCall := by
  intro y hy
  obtain rfl := List.mem_singleton.mp hy
  exact .call Disturbance.none_isHonest

/-- An event is answered once its loan is open, and fails before. -/
theorem events_answered_at_noon :
    noon.IsNew ∧ (∀ y ∈ openedAtNoon, y.IsCall) ∧ Disturbance.none.faults = [] ∧
      (∃ o d', looping.handle knock ((noon.after openedAtNoon).prepared noon.clock .none) = .ok o d' ∧
        Traced looping knock ((noon.after openedAtNoon).prepared noon.clock .none) (.ok o d')) ∧
      ∃ d', looping.handle knock ((noon.after []).prepared noon.clock .none) =
          .error (.failure (.loanNotFound "L1")) d' ∧
        d'.traces = [⟨⟨.warning, "services.workflow_engine", "workflow_transition",
          failureTrace looping.definition knock (.loanNotFound "L1"), none⟩,
            (noon.bound (eventContext knock)).context⟩] := by
  obtain ⟨told, -⟩ :=
    events_answered noon openedAtNoon ⟨rfl, rfl⟩ openedAtNoon_isCall looping knock noon.clock .none rfl
  obtain ⟨told', -⟩ :=
    events_answered noon [] ⟨rfl, rfl⟩ (List.forall_mem_nil _) looping knock noon.clock .none rfl
  obtain ⟨rs, hrs⟩ := knock_applied
  obtain ⟨d', h⟩ := Work.ok_of_answer hrs
  obtain ⟨d'', h'⟩ : ∃ d'', looping.handle knock ((noon.after []).prepared noon.clock .none) =
      .error (.failure (.loanNotFound "L1")) d'' := ⟨_, rfl⟩
  rw [h] at told
  rw [h'] at told'
  refine ⟨⟨rfl, rfl⟩, openedAtNoon_isCall, rfl, ⟨_, d', h, told⟩, d'', h', ?_⟩
  cases told' with
  | failed _ _ htraces => exact htraces
  | untold hk _ => cases hk

/-! ## An event that escapes -/

/-- The first midnight of the calendar, an hour east of Greenwich: there the year before had not ended. -/
def firstMidnight : Calendar.Timestamp := ⟨⟨1, 1, 1, by decide⟩, .midnight, some ⟨3600000000, by decide⟩⟩

def early : Event := { knock with occurredAt := firstMidnight, isAware := rfl }

theorem early_isRead : Event.ofEntries? [(.text "type", .text "knock"), (.text "loan_id", .text "L1"),
    (.text "founder_id", .text "F1"), (.text "occurred_at", .text "0001-01-01T00:00:00+01:00"),
    (.text "event_id", .text "1")] noon.clock = .ok early := by
  rfl

theorem early_untimely : ¬ early.IsTimely := by
  have outside : firstMidnight.toUtc? = none := by decide +kernel
  rintro ⟨u, hu⟩
  cases outside.symm.trans hu

theorem opened_of_step {m : Machine} {r : Reply}
    (h : (r, m) ∈ Machine.empty.step looping.definition (.open_ "L1" "F1" systemActor)) :
    m = Machine.empty.put "L1" "open" :=
  (Prod.mk.inj (List.mem_singleton.mp h)).2

/-- The loan is open in its initial state, and no event has moved it. -/
theorem openedAtNoon_shows : IsOpen (noon.after openedAtNoon) 1 ∧
    Machine.of (noon.after openedAtNoon).store = Machine.empty.put "L1" "open" := by
  have start : IsOpen noon (mostActions looping.definition + 1 + 1) :=
    isOpen_of_isNew ⟨rfl, rfl⟩ (IdSupply.numbered_isFresh 0) (by decide)
  obtain ⟨⟨r, -, hm⟩, after⟩ :=
    serve_stepped (g := looping) (c := .open_ "L1" "F1" systemActor) ⟨by decide, _, rfl⟩
      (start.prepared noon.clock .none) ⟨rfl, rfl, rfl⟩ noon_isTimely trivial
  rw [← turn_call] at hm after
  rw [openedAtNoon, after_singleton]
  exact ⟨after, opened_of_step hm⟩

/-- The early event escapes wherever its loan is open and not moved yet. -/
theorem early_escapes (h : IsOpen d 1) (hm : Machine.of d.store = Machine.empty.put "L1" "open") :
    LeavesCalendar (looping.handle early) (d.prepared noon.clock .none) := by
  have put : (Machine.empty.put "L1" "open").state? "L1" = some "open" := by simp [Machine.put]
  obtain ⟨l, hl, hstate⟩ := Option.map_eq_some_iff.mp ((congrArg (·.state? "L1") hm).trans put)
  have free : d.store.entryByKey? early.key = none :=
    Machine.entryByKey?_of_move? h.keyed (congrArg (·.move? early.key) hm)
  exact handle_untimely ⟨by decide, _, rfl⟩ (h.prepared noon.clock .none) ⟨rfl, rfl, rfl⟩ noon_isTimely
    early_untimely hl
    (by rw [hstate]; rfl) free

/-- An event can be read that escapes: its time is none in UTC, so that it is not recorded, ends in an error that is no
failure of the ledger or the workflow, and leaves no trace. -/
theorem early_unanswered :
    noon.IsNew ∧ (∀ y ∈ openedAtNoon, y.IsCall) ∧ (∃ es, Event.ofEntries? es noon.clock = .ok early) ∧
      ∃ err d', looping.handle early ((noon.after openedAtNoon).prepared noon.clock .none) = .error err d' ∧
        err.isKernel = false ∧ d'.traces = ((noon.after openedAtNoon).prepared noon.clock .none).traces := by
  obtain ⟨isOpen, shows⟩ := openedAtNoon_shows
  obtain ⟨d', h⟩ := early_escapes isOpen shows
  have told := handle_traced looping early ((noon.after openedAtNoon).prepared noon.clock .none)
  rw [h] at told
  cases told with
  | untold hk htraces => exact ⟨⟨rfl, rfl⟩, openedAtNoon_isCall, ⟨_, early_isRead⟩, _, d', h, hk, htraces⟩

end LoanLedger.Engine
