import LoanLedger.Proofs.Answered
import LoanLedger.Proofs.Heedless

/-!
# Cancellation is honoured up to the commit

A token that is set at some moment and stays set lets a number of checks pass and fails all further ones.

* `Course e x d ss` : the work checks at the stages `ss` when nothing cancels it; a token stops it at the next of them,
  and is not noticed after the last one;
* `Checks e x Q` : what is known of how such work ends and of its stages, with one rule for each way of composing work;
* `Checked g e r ss` : an event that ends with `r` has made its checks, one before each action and one before the
  commit;
* `handle_checks` : so it is of every event;
* `cancellation_honoured` : an event is cancelled at the first check after its token was set and leaves the committed
  rows as they were; when there is none, it goes as it does without a token.
-/

set_option synthInstance.maxSize 1000

namespace LoanLedger.Engine

open Ledger (Work Desk Loan Holds Keeps Heedless onDesk)
open Workflow (Action State Transition)

variable {α β : Type} {g : Engine} {e : Event} {x : Work α} {f : α → Work β} {d d₁ d' : Desk} {a : α}
  {err : Ledger.Error} {ss ts : List String}

/-! ## Courses -/

def cancellation (e : Event) (stage : String) : Ledger.Error :=
  .failure (.eventCancelled e.loanId e.type stage)

/-- The work makes checks at these stages, in order, when nothing cancels it. -/
structure Course (e : Event) (x : Work α) (d : Desk) (ss : List String) : Prop where
  /-- A token that is set before the last of them stops the work at the next one. -/
  stopped : ∀ n (h : n < ss.length), ∃ d', x (d.allowing (some n)) = .error (cancellation e ss[n]) d'
  /-- A token that is set afterwards is not noticed. -/
  through : ∀ n, x (d.allowing (some (ss.length + n))) = onDesk (·.allowing (some n)) (x d)

namespace Course

theorem through_ok (hx : Course e x d ss) (h : x d = .ok a d₁) (n : Nat) :
    x (d.allowing (some (ss.length + n))) = .ok a (d₁.allowing (some n)) := by
  rw [hx.through, h]
  rfl

theorem through_error (hx : Course e x d ss) (h : x d = .error err d₁) (n : Nat) :
    x (d.allowing (some (ss.length + n))) = .error err (d₁.allowing (some n)) := by
  rw [hx.through, h]
  rfl

theorem of_heedless [hx : Holds Heedless x] : Course e x d [] where
  stopped n h := absurd h (Nat.not_lt_zero n)
  through n := by
    rw [List.length_nil, Nat.zero_add]
    exact hx.holds d (some n)

/-- Where work goes on, the checks of what follows come behind its own. -/
theorem bind (hx : Course e x d ss) (h : x d = .ok a d₁) (hf : Course e (f a) d₁ ts) :
    Course e (x >>= f) d (ss ++ ts) where
  stopped n hn := by
    by_cases hlt : n < ss.length
    · obtain ⟨d', hs⟩ := hx.stopped n hlt
      rw [List.getElem_append_left hlt]
      exact ⟨d', Work.bind_of_error hs⟩
    · obtain ⟨m, rfl⟩ := Nat.exists_eq_add_of_le (Nat.le_of_not_lt hlt)
      have hm : m < ts.length := by
        rw [List.length_append] at hn
        omega
      obtain ⟨d', hs⟩ := hf.stopped m hm
      have after : (ss ++ ts)[ss.length + m] = ts[m] := by simp
      rw [after]
      exact ⟨d', (Work.bind_of_ok (hx.through_ok h m)).trans hs⟩
  through n := by
    rw [List.length_append, Nat.add_assoc, Work.bind_of_ok (hx.through_ok h _), hf.through, Work.bind_of_ok h]

theorem bind_of_error (hx : Course e x d ss) (h : x d = .error err d₁) : Course e (x >>= f) d ss where
  stopped n hn := (hx.stopped n hn).imp fun _ hs => Work.bind_of_error hs
  through n := by
    rw [Work.bind_of_error (hx.through_error h n), Work.bind_of_error h]
    rfl

theorem map (hx : Course e x d ss) (k : α → β) : Course e (k <$> x) d ss := by
  rw [map_eq_pure_bind]
  cases h : x d with
  | ok a d₁ =>
    have done : Course e (pure (k a)) d₁ [] := .of_heedless
    simpa using hx.bind (f := fun a => pure (k a)) h done
  | error err d₁ => exact hx.bind_of_error h

/-- Failures may be dealt with, if cancellations are passed on. -/
theorem recover {handler : Ledger.Error → Work α} (hx : Course e x d ss)
    (hh : ∀ err d₁, x d = .error err d₁ → Course e (handler err) d₁ [])
    (passes : ∀ stage d, ∃ d', handler (cancellation e stage) d = .error (cancellation e stage) d') :
    Course e (x.recover handler) d ss where
  stopped n hn := by
    obtain ⟨d₁, hs⟩ := hx.stopped n hn
    rw [Work.recover_of_error hs]
    exact passes _ d₁
  through n := by
    cases h : x d with
    | ok a d₁ =>
      rw [Work.recover_of_ok h, Work.recover_of_ok (hx.through_ok h n)]
      rfl
    | error err d₁ =>
      rw [Work.recover_of_error h, Work.recover_of_error (hx.through_error h n)]
      simpa using (hh err d₁ h).through n

/-- What is done at the end in any case does not look at the token. -/
theorem finally_ {k : Desk → Desk} (hx : Course e x d ss) (hk : ∀ d c, k (d.allowing c) = (k d).allowing c) :
    Course e (x.finally_ (modify k)) d ss where
  stopped n hn := (hx.stopped n hn).elim fun _ hs => ⟨_, Work.finally_of_error hs⟩
  through n := by
    cases h : x d with
    | ok a d₁ =>
      rw [Work.finally_of_ok h, Work.finally_of_ok (hx.through_ok h n), hk]
      rfl
    | error err d₁ =>
      rw [Work.finally_of_error h, Work.finally_of_error (hx.through_error h n), hk]
      rfl

theorem withContext {fields : List (String × Value)} (hx : Course e x (d.bound fields) ss) :
    Course e (Ledger.withContext fields x) d ss where
  stopped n hn := (hx.stopped n hn).elim fun _ hs => ⟨_, Ledger.withContext_of_error (d := d.allowing (some n)) hs⟩
  through n := by
    cases h : x (d.bound fields) with
    | ok a d₁ =>
      rw [Ledger.withContext_of_ok h, Ledger.withContext_of_ok (d := d.allowing _) (hx.through_ok h n)]
      rfl
    | error err d₁ =>
      rw [Ledger.withContext_of_error h, Ledger.withContext_of_error (d := d.allowing _) (hx.through_error h n)]
      rfl

variable {loanId : String} {timeout : Value}

theorem withLock (hl : (d.locks.hold loanId timeout).2 = .ok ()) (hx : Course e x (d.held loanId timeout) ss) :
    Course e (Engine.withLock loanId timeout x) d ss := by
  have held (c : Option Nat) : ((d.allowing c).locks.hold loanId timeout).2 = .ok () := hl
  refine ⟨fun n hn => ?_, fun n => ?_⟩
  · obtain ⟨d', hs⟩ := hx.stopped n hn
    exact ⟨_, Ledger.withLock_of_error (held (some n)) hs⟩
  · cases h : x (d.held loanId timeout) with
    | ok a d₁ =>
      rw [Ledger.withLock_of_ok hl h, Ledger.withLock_of_ok (held (some (ss.length + n))) (hx.through_ok h n)]
      rfl
    | error err d₁ =>
      rw [Ledger.withLock_of_error hl h, Ledger.withLock_of_error (held (some (ss.length + n))) (hx.through_error h n)]
      rfl

theorem withLock_refused {r : Locks.Error} (hl : (d.locks.hold loanId timeout).2 = .error r) :
    Course e (Engine.withLock loanId timeout x) d [] := by
  have refused (c : Option Nat) : ((d.allowing c).locks.hold loanId timeout).2 = .error r := hl
  have failed : Course e (lockFailed loanId timeout r : Work α) d [] := .of_heedless
  refine ⟨fun n h => absurd h (Nat.not_lt_zero n), fun n => ?_⟩
  rw [Ledger.withLock_refused hl, Ledger.withLock_refused (refused (some (([] : List String).length + n)))]
  exact failed.through n

end Course

/-! ## Checks -/

/-- A check only asks for the token. -/
theorem check_run (h : d.IsUncancelled) (stage : String) (c : Option Nat) :
    checkCancelled e stage (d.allowing c) =
      (do if !(← Ledger.checkPasses) then throw (cancellation e stage) : Work Unit) (d.allowing c) := by
  have judged : Ledger.judge .cancelCheck (d.allowing c).faults = (d.faults, .done) :=
    Ledger.judge_spared fun f hf => h.spared f.plan (List.mem_map_of_mem hf)
  have passed : (d.allowing c).passed .cancelCheck = d.allowing c := by
    rw [Desk.passed, judged]
    rfl
  unfold checkCancelled
  rw [Ledger.call_run, judged, passed]
  rfl

theorem check_uncancelled (h : d.IsUncancelled) (stage : String) : checkCancelled e stage d = .ok () d := by
  have same : d.allowing none = d := by rw [← h.checks, Desk.allowing]
  have run := check_run (e := e) h stage none
  rw [same] at run
  rw [run, ← same]
  rfl

theorem check_course (h : d.IsUncancelled) (stage : String) : Course e (checkCancelled e stage) d [stage] where
  stopped n hn := by
    obtain rfl : n = 0 := by simpa using hn
    exact ⟨_, check_run h stage (some 0)⟩
  through n := by
    rw [check_uncancelled h, check_run h, List.length_singleton, Nat.add_comm]
    rfl

/-! ## What is known of checks -/

/-- Whatever comes of the work when nothing cancels it, this is known of that and of the stages of its checks. -/
def Checks (e : Event) (x : Work α) (Q : Except Ledger.Error α → List String → Prop) : Prop :=
  ∀ d, d.IsUncancelled → ∃ ss, Course e x d ss ∧ Q (x.answer d) ss

namespace Checks

variable {P : Except Ledger.Error α → List String → Prop} {Q : Except Ledger.Error β → List String → Prop}
    {p : α → Prop}

theorem of_heedless [Holds Heedless x] (h : ∀ d r, x.answer d = r → P r []) : Checks e x P :=
  fun d _ => ⟨[], .of_heedless, h d _ rfl⟩

theorem bind [Keeps Desk.Beside x] (hx : Checks e x P)
    (hf : ∀ a, Checks e (f a) fun r ts => ∀ ss, P (.ok a) ss → Q r (ss ++ ts))
    (herror : ∀ err ss, P (.error err) ss → Q (.error err) ss) : Checks e (x >>= f) Q := by
  intro d hd
  obtain ⟨ss, hx, hP⟩ := hx d hd
  cases h : x d with
  | ok a d₁ =>
    rw [Work.answer_of_ok h] at hP
    have beside : d.Beside d₁ := Keeps.ok h
    obtain ⟨ts, hf, hQ⟩ := hf a d₁ (beside.isUncancelled hd)
    refine ⟨ss ++ ts, hx.bind h hf, ?_⟩
    rw [Work.answer, Work.bind_of_ok h]
    exact hQ ss hP
  | error err d₁ =>
    rw [Work.answer_of_error h] at hP
    refine ⟨ss, hx.bind_of_error h, ?_⟩
    rw [Work.answer_of_error (Work.bind_of_error h)]
    exact herror err ss hP

/-- Before a check there may be heedless work, of which something is known when it goes well. -/
theorem after [Holds Heedless x] [Keeps Desk.Beside x] (hp : ∀ {d a d'}, x d = .ok a d' → p a)
    (hf : ∀ a, p a → Checks e (f a) Q) (herror : ∀ err, Q (.error err) []) : Checks e (x >>= f) Q := by
  intro d hd
  cases h : x d with
  | ok a d₁ =>
    have beside : d.Beside d₁ := Keeps.ok h
    obtain ⟨ts, hf, hQ⟩ := hf a (hp h) d₁ (beside.isUncancelled hd)
    have silent : Course e x d [] := .of_heedless
    refine ⟨ts, silent.bind h hf, ?_⟩
    rw [Work.answer, Work.bind_of_ok h]
    exact hQ
  | error err d₁ =>
    refine ⟨[], Course.of_heedless.bind_of_error h, ?_⟩
    rw [Work.answer_of_error (Work.bind_of_error h)]
    exact herror err

theorem map {k : α → β} (hx : Checks e x P) (h : ∀ r ss, P r ss → Q (r.map k) ss) : Checks e (k <$> x) Q := by
  intro d hd
  obtain ⟨ss, hx, hP⟩ := hx d hd
  refine ⟨ss, hx.map k, ?_⟩
  rw [Work.answer_map]
  exact h _ _ hP

/-- Failures may be dealt with by heedless work, if cancellations are passed on. -/
theorem recover {handler : Ledger.Error → Work α} {Q : Except Ledger.Error α → List String → Prop}
    (hx : Checks e x P) (hh : ∀ err, Holds Heedless (handler err))
    (passes : ∀ stage d, ∃ d', handler (cancellation e stage) d = .error (cancellation e stage) d')
    (hok : ∀ a ss, P (.ok a) ss → Q (.ok a) ss)
    (herror : ∀ err ss d, P (.error err) ss → Q ((handler err).answer d) ss) : Checks e (x.recover handler) Q := by
  intro d hd
  obtain ⟨ss, hx, hP⟩ := hx d hd
  refine ⟨ss, hx.recover (fun err d₁ _ => .of_heedless) passes, ?_⟩
  cases h : x d with
  | ok a d₁ =>
    rw [Work.answer_of_ok h] at hP
    rw [Work.answer_of_ok (Work.recover_of_ok h)]
    exact hok a ss hP
  | error err d₁ =>
    rw [Work.answer_of_error h] at hP
    rw [Work.answer, Work.recover_of_error h]
    exact herror err ss d₁ hP

theorem inSession (hx : Checks e x P) (hnil : ∀ err, P (.error err) []) : Checks e (Engine.inSession x) P := by
  refine .after (p := fun _ => True) (fun _ => trivial) (fun _ _ d hd => ?_) hnil
  obtain ⟨ss, hx, hP⟩ := hx d hd
  refine ⟨ss, hx.finally_ fun _ _ => rfl, ?_⟩
  cases h : x d with
  | ok a d₁ =>
    rw [Work.answer_of_ok h] at hP
    exact Work.answer_of_ok (Work.finally_of_ok h) ▸ hP
  | error err d₁ =>
    rw [Work.answer_of_error h] at hP
    exact Work.answer_of_error (Work.finally_of_error h) ▸ hP

theorem withContext (fields : List (String × Value)) (hx : Checks e x P) :
    Checks e (Ledger.withContext fields x) P := by
  intro d hd
  obtain ⟨ss, hx, hP⟩ := hx (d.bound fields) ⟨hd.checks, hd.spared⟩
  refine ⟨ss, hx.withContext, ?_⟩
  cases h : x (d.bound fields) with
  | ok a d₁ =>
    rw [Work.answer_of_ok h] at hP
    exact Work.answer_of_ok (Ledger.withContext_of_ok h) ▸ hP
  | error err d₁ =>
    rw [Work.answer_of_error h] at hP
    exact Work.answer_of_error (Ledger.withContext_of_error h) ▸ hP

/-- A lock that is refused is refused before any check. -/
theorem withLock (loanId : String) (timeout : Value) (hx : Checks e x P) (hnil : ∀ err, P (.error err) []) :
    Checks e (Engine.withLock loanId timeout x) P := by
  intro d hd
  cases hl : (d.locks.hold loanId timeout).2 with
  | error r =>
    obtain ⟨err, d₁, hr⟩ := Ledger.lockFailed_error (α := α) loanId timeout r d
    refine ⟨[], .withLock_refused hl, ?_⟩
    rw [Work.answer, Ledger.withLock_refused hl, hr]
    exact hnil err
  | ok _ =>
    obtain ⟨ss, hx, hP⟩ := hx (d.held loanId timeout) ⟨hd.checks, hd.spared⟩
    refine ⟨ss, hx.withLock hl, ?_⟩
    cases h : x (d.held loanId timeout) with
    | ok a d₁ =>
      rw [Work.answer_of_ok h] at hP
      exact Work.answer_of_ok (Ledger.withLock_of_ok hl h) ▸ hP
    | error err d₁ =>
      rw [Work.answer_of_error h] at hP
      exact Work.answer_of_error (Ledger.withLock_of_error hl h) ▸ hP

/-- A check passes, and is the first one. -/
theorem check (stage : String) {x : Work α} (hx : Checks e x fun r ts => P r (stage :: ts)) :
    Checks e (do checkCancelled e stage; x) P := by
  intro d hd
  obtain ⟨ts, hx, hP⟩ := hx d hd
  have passed := check_uncancelled (e := e) hd stage
  refine ⟨stage :: ts, (check_course hd stage).bind passed hx, ?_⟩
  rw [Work.answer, Work.bind_of_ok passed]
  exact hP

end Checks

/-! ## Actions -/

theorem request_action {task : Task} {kind : Ledger.Tranche} {r : ActionResult} (h : request task kind d = .ok r d') :
    r.action = task.action := by
  obtain ⟨answer, d₁, -, h⟩ := Work.bind_ok h
  cases answer with
  | none => cases h
  | some answer =>
    obtain ⟨_, d₂, -, h⟩ := Work.bind_ok h
    dsimp only at h
    split at h
    · obtain ⟨_, d₃, -, h⟩ := Work.bind_ok h
      cases h
      rfl
    · cases h
      rfl

theorem recordUnknown_action {task : Task} {r : ActionResult} (h : recordUnknown task d = .ok r d') :
    r.action = task.action := by
  obtain ⟨_, _, -, h⟩ := Work.bind_ok h
  obtain ⟨_, _, -, h⟩ := Work.bind_ok h
  cases h
  rfl

/-- What an action did tells which one it was. -/
theorem dispatch_action {h : Dispatcher} {task : Task} {r : ActionResult} (hr : h.dispatch task d = .ok r d') :
    r.action = task.action := by
  unfold Dispatcher.dispatch at hr
  cases hk : h.tranche? task.action.kind with
  | none =>
    rw [hk] at hr
    obtain ⟨_, d₁, hw, hr⟩ := Work.bind_ok hr
    obtain ⟨_, _, -, hr⟩ := Work.bind_ok hr
    cases hr
    exact recordUnknown_action hw
  | some kind =>
    rw [hk] at hr
    obtain ⟨_, d₁, hw, hr⟩ := Work.bind_ok hr
    obtain ⟨_, _, -, hr⟩ := Work.bind_ok hr
    cases hr
    exact request_action hw

def stageOf (a : Action) : String := "action:" ++ a.trigger

theorem doAction_checks (fromState : String) (t : Transition) (a : Action) :
    Checks e (g.doAction e fromState t a) fun r ss => ss = [stageOf a] ∧ ∀ x, r = .ok x → x.action = a := by
  refine .check (stageOf a) (.of_heedless fun d r hr => ⟨rfl, fun x hx => ?_⟩)
  rw [hx] at hr
  obtain ⟨d', h⟩ := Work.ok_of_answer hr
  exact dispatch_action h

/-- There is a check before each action, up to one that fails. -/
theorem actions_checks (fromState : String) (t : Transition) (as : List Action) :
    Checks e (as.mapM (g.doAction e fromState t)) fun r ss =>
      ss <+: as.map stageOf ∧ ∀ rs, r = .ok rs → ss = as.map stageOf ∧ rs.map (·.action) = as := by
  induction as with
  | nil =>
    rw [List.mapM_nil]
    exact .of_heedless fun d r hr => ⟨List.nil_prefix, fun rs h => by cases hr.trans h; exact ⟨rfl, rfl⟩⟩
  | cons a as ih =>
    rw [List.mapM_cons]
    refine .bind (doAction_checks fromState t a) (fun x => .bind ih (fun xs => ?_) ?_) ?_
    · -- all of them went well
      refine .of_heedless fun d r hr ss hss ts hts => ?_
      cases hr
      obtain ⟨rfl, hxs⟩ := hss.2 xs rfl
      obtain ⟨rfl, hx⟩ := hts
      refine ⟨by simp, fun rs h => ?_⟩
      cases h
      exact ⟨by simp, by rw [List.map_cons, hx x rfl, hxs]⟩
    · -- a later one failed
      rintro err ss ⟨hss, -⟩ ts ⟨rfl, -⟩
      exact ⟨List.cons_prefix_cons.mpr ⟨rfl, hss⟩, fun rs h => by cases h⟩
    · rintro err ss ⟨rfl, -⟩
      exact ⟨⟨as.map stageOf, rfl⟩, fun rs h => by cases h⟩

/-! ## Events -/

/-- The stages at which an event with some actions is checked: with its lock, before each action, before its commit. -/
def stagesOf (as : List Action) : List String := "lock_acquired" :: as.map stageOf ++ ["commit"]

/-- These can be the actions of an event: those of a transition for it, or none. -/
inductive IsPlanned (g : Engine) (e : Event) : List Action → Prop where
  | none : IsPlanned g e []
  | some {id : String} {s : State} {t : Transition} :
    g.definition.find? id = some s → s.find? e.type = some t → IsPlanned g e t.actions

/-- Checks up to some point. -/
def IsPath (g : Engine) (e : Event) (ss : List String) : Prop := ∃ as, g.IsPlanned e as ∧ ss <+: stagesOf as

/-- What an event did when nothing cancelled it, and at which stages it was checked. -/
inductive Checked (g : Engine) (e : Event) : Except Ledger.Error Decision → List String → Prop where
  | applied {a b : String} {rs : List ActionResult} {s : State} {t : Transition} :
    g.definition.find? a = some s → s.find? e.type = some t → t.to = b → rs.map (·.action) = t.actions →
    Checked g e (.ok (.applied a b rs)) (stagesOf t.actions)
  | ignored {a : String} : Checked g e (.ok (.ignored a)) (stagesOf [])
  | duplicate {a b : Value} {ss : List String} : g.IsPath e ss → Checked g e (.ok (.duplicate a b)) ss
  | failed {err : Ledger.Error} {ss : List String} : g.IsPath e ss → Checked g e (.error err) ss

theorem IsPath.nil : g.IsPath e [] := ⟨[], .none, List.nil_prefix⟩

theorem IsPath.locked : g.IsPath e ["lock_acquired"] := ⟨[], .none, ⟨["commit"], rfl⟩⟩

theorem Checked.isPath {r : Except Ledger.Error Decision} (h : Checked g e r ss) : g.IsPath e ss := by
  cases h with
  | applied hs ht _ _ => exact ⟨_, .some hs ht, List.prefix_rfl⟩
  | ignored => exact ⟨[], .none, List.prefix_rfl⟩
  | duplicate h => exact h
  | failed h => exact h

theorem ignore_checks (state : String) :
    Checks e (ignore e state) fun r ss => g.Checked e r ("lock_acquired" :: ss) := by
  refine .after (p := fun _ => True) (fun _ => trivial) (fun _ _ => ?_) fun err => .failed .locked
  refine .check "commit" (.of_heedless fun d r hr => ?_)
  cases hr
  exact .ignored

theorem take_checks {l : Loan} {s : State} {t : Transition} (hs : g.definition.find? l.state = some s)
    (ht : s.find? e.type = some t) :
    Checks e (g.take e l.state t) fun r ss => g.Checked e r ("lock_acquired" :: ss) := by
  have upto {ss : List String} (h : ss <+: t.actions.map stageOf) : g.IsPath e ("lock_acquired" :: ss) :=
    ⟨t.actions, .some hs ht, List.cons_prefix_cons.mpr ⟨rfl, h.trans (List.prefix_append _ _)⟩⟩
  refine .bind (actions_checks l.state t t.actions) (fun rs => ?_) fun err ss h => .failed (upto h.1)
  -- from here on only the commit is checked, whatever fails
  refine .after (p := fun _ => True) (fun _ => trivial) (fun _ _ => .after (p := fun _ => True) (fun _ => trivial)
    (fun _ _ => .check "commit" (.of_heedless fun d r hr ss hss => ?_)) ?_) ?_
  · cases hr
    obtain ⟨rfl, hrs⟩ := hss.2 rs rfl
    exact .applied hs ht rfl hrs
  · intro err ss hss
    rw [List.append_nil]
    exact .failed (upto hss.1)
  · intro err ss hss
    rw [List.append_nil]
    exact .failed (upto hss.1)

/-- Within its session an event is found to be recorded before any check, or makes them all but for failures. -/
theorem weigh_checks :
    Checks e (g.weigh e) fun r ss => g.IsPath e ("lock_acquired" :: ss) ∧
      ∀ x, r = .ok (.inr x) → g.Checked e (.ok x) ("lock_acquired" :: ss) := by
  have failed (err : Ledger.Error) : g.IsPath e ["lock_acquired"] ∧
      ∀ x, (.error err : Except Ledger.Error (Ledger.Entry ⊕ Decision)) = .ok (.inr x) →
      g.Checked e (.ok x) ["lock_acquired"] :=
    ⟨.locked, fun x h => by cases h⟩
  have decided {x : Work Decision} (hx : Checks e x fun r ss => g.Checked e r ("lock_acquired" :: ss)) :
      Checks e (.inr <$> x : Work (Ledger.Entry ⊕ Decision)) fun r ss => g.IsPath e ("lock_acquired" :: ss) ∧
        ∀ x, r = .ok (.inr x) → g.Checked e (.ok x) ("lock_acquired" :: ss) := by
    refine hx.map fun r ss h => ⟨h.isPath, fun x hr => ?_⟩
    cases r with
    | error err => cases hr
    | ok y =>
      cases hr
      exact h
  refine .after (p := fun _ => True) (fun _ => trivial)
    (fun l _ => .after (p := fun s => g.definition.find? l.state = some s) (fun h => (stateOf_ok h).1)
      (fun s hs => .after (p := fun _ => True) (fun _ => trivial) (fun entry _ => ?_) failed) failed)
    failed
  cases entry with
  | some entry =>
    refine .of_heedless fun d r hr => ⟨.locked, fun x h => ?_⟩
    cases hr.trans h
  | none =>
    cases ht : s.find? e.type with
    | none => exact decided (ignore_checks l.state)
    | some t => exact decided (take_checks hs ht)

/-- An event that is recorded is answered as a duplicate, or that fails. -/
theorem duplicateOf_checked {entry : Option Ledger.Entry} {r : Except Ledger.Error Decision}
    (h : (duplicateOf e entry).answer d = r) (hss : g.IsPath e ss) : g.Checked e r ss := by
  cases r with
  | error err => exact .failed hss
  | ok x =>
    obtain ⟨d', h⟩ := Work.ok_of_answer h
    cases x with
    | duplicate => exact .duplicate hss
    | applied => cases duplicateOf_ok h
    | ignored => cases duplicateOf_ok h

theorem decide_checks : Checks e (g.decide_ e) fun r ss => g.Checked e r ("lock_acquired" :: ss) := by
  refine .bind weigh_checks (fun w => ?_) fun err ss h => .failed h.1
  cases w with
  | inl entry =>
    refine .of_heedless fun d r hr ss hss => ?_
    rw [List.append_nil]
    exact duplicateOf_checked hr hss.1
  | inr x =>
    refine .of_heedless fun d r hr ss hss => ?_
    rw [List.append_nil]
    cases r with
    | error err => exact .failed hss.1
    | ok y =>
      obtain ⟨d', h⟩ := Work.ok_of_answer hr
      obtain ⟨_, _, -, h⟩ := Work.bind_ok h
      cases h
      exact hss.2 x rfl

theorem apply_checks : Checks e (g.apply e) fun r ss => g.Checked e r ("lock_acquired" :: ss) := by
  refine .inSession (.recover decide_checks (fun err => inferInstance) (fun stage d => ⟨d, rfl⟩) (fun a ss h => h)
    fun err ss d h => ?_) fun err => .failed .locked
  generalize hr : Work.answer _ d = r
  split at hr
  · -- what another one has recorded meanwhile is looked up again
    cases r with
    | error err => exact .failed h.isPath
    | ok x =>
      obtain ⟨d', hr⟩ := Work.ok_of_answer hr
      obtain ⟨_, _, -, hr⟩ := Work.bind_ok hr
      obtain ⟨entry, d₁, -, hr⟩ := Work.bind_ok hr
      exact duplicateOf_checked (Work.answer_of_ok hr) h.isPath
  · cases hr
    exact .failed h.isPath

/-- An event that is handled is checked when it has the lock of its loan, and in its session. -/
theorem handle_checks : Checks e (g.handle e) fun r ss => ∃ x, r = x.map (Outcome.of e) ∧ g.Checked e x ss := by
  have locked :
      Checks e (withLock e.loanId g.lockTimeout do checkCancelled e "lock_acquired"; g.apply e) (g.Checked e) :=
    .withLock _ _ (.check "lock_acquired" apply_checks) fun err => .failed .nil
  have noted : Checks e (Work.recover (withLock e.loanId g.lockTimeout do checkCancelled e "lock_acquired"; g.apply e)
      fun x => do g.noteFailure e x; throw x) (g.Checked e) := by
    refine .recover locked (fun err => inferInstance) (fun stage d => ?_) (fun a ss h => h) fun err ss d h => ?_
    · obtain ⟨log, hr⟩ := Ledger.emit_run .warning "services.workflow_engine" "workflow_transition"
        (failureTrace g.definition e (.eventCancelled e.loanId e.type stage)) d
      exact ⟨_, Work.bind_of_ok hr⟩
    · generalize hr : Work.answer _ d = r
      cases r with
      | error err => exact .failed h.isPath
      | ok x =>
        obtain ⟨d', hr⟩ := Work.ok_of_answer hr
        obtain ⟨_, _, -, hr⟩ := Work.bind_ok hr
        cases hr
  refine .withContext _ (.bind noted (fun x => .of_heedless fun d r hr ss h => ?_) fun err ss h =>
    ⟨.error err, rfl, h⟩)
  rw [List.append_nil]
  cases r with
  | error err => exact ⟨.error err, rfl, .failed h.isPath⟩
  | ok o =>
    obtain ⟨d', hr⟩ := Work.ok_of_answer hr
    obtain ⟨_, _, -, hr⟩ := Work.bind_ok hr
    cases hr
    exact ⟨.ok x, rfl, h⟩

/-- Cancellation is honoured up to the commit. Take any event at any ledger, without a token, however else it is
disturbed: it ends in some way, with checks at some stages. A token that is set before the last of these checks
cancels the event at the first one after that moment, and nothing is committed. A token that is set later changes
neither the answer nor the desk, of which the committed rows are a part. -/
theorem cancellation_honoured (g : Engine) (e : Event) (d : Desk) (hd : d.IsHonest) (hu : d.IsUncancelled) :
    ∃ x ss, (g.handle e).answer d = x.map (Outcome.of e) ∧ g.Checked e x ss ∧
      (∀ n (h : n < ss.length), ∃ d',
        g.handle e (d.allowing (some n)) = .error (.failure (.eventCancelled e.loanId e.type ss[n])) d' ∧
        d'.store = d.store) ∧
      ∀ n, ss.length ≤ n →
        (g.handle e).answer (d.allowing (some n)) = (g.handle e).answer d ∧
        (g.handle e).desk (d.allowing (some n)) = ((g.handle e).desk d).allowing (some (n - ss.length)) := by
  obtain ⟨ss, course, x, hx, checked⟩ := handle_checks (g := g) (e := e) d hu
  refine ⟨x, ss, hx, checked, fun n hn => ?_, fun n hn => ?_⟩
  · obtain ⟨d', hr⟩ := course.stopped n hn
    have served := serve_served g (.handle e) (d := d.allowing (some n)) hd
    rw [serve, Work.map_of_error hr] at served
    cases served with
    | failed hs => exact ⟨d', hr, hs⟩
  · obtain ⟨m, rfl⟩ := Nat.exists_eq_add_of_le hn
    rw [Nat.add_sub_cancel_left]
    cases h : g.handle e d with
    | ok o d₁ =>
      have same := course.through_ok h m
      exact ⟨by rw [Work.answer_of_ok same, Work.answer_of_ok h], by rw [Work.desk_of_ok same, Work.desk_of_ok h]⟩
    | error err d₁ =>
      have same := course.through_error h m
      exact ⟨by rw [Work.answer_of_error same, Work.answer_of_error h],
        by rw [Work.desk_of_error same, Work.desk_of_error h]⟩

/-- An event that requests a tranche has three checks. -/
theorem cancellation_honoured_at_noon :
    ((noon.after openedAtNoon).prepared noon.clock .none).IsHonest ∧
      ((noon.after openedAtNoon).prepared noon.clock .none).IsUncancelled ∧
      (∀ n (h : n < 3), ∃ d',
        looping.handle knock (((noon.after openedAtNoon).prepared noon.clock .none).allowing (some n)) =
          .error
            (.failure (.eventCancelled "L1" "knock" ["lock_acquired", "action:DISBURSEMENT_1", "commit"][n])) d' ∧
        d'.store = (noon.after openedAtNoon).store) ∧
      ∃ rs, (looping.handle knock).answer (((noon.after openedAtNoon).prepared noon.clock .none).allowing (some 3)) =
        .ok (Outcome.of knock (.applied "open" "open" rs)) := by
  obtain ⟨rs, applied⟩ := knock_applied
  have honest : ((noon.after openedAtNoon).prepared noon.clock .none).IsHonest := Disturbance.none_isHonest
  have prepared (d : Desk) : (d.prepared noon.clock .none).store = d.store := rfl
  have requestStages : stagesOf [.ofTrigger "DISBURSEMENT_1"] = ["lock_acquired", "action:DISBURSEMENT_1", "commit"] :=
    rfl
  have uncancelled : ((noon.after openedAtNoon).prepared noon.clock .none).IsUncancelled :=
    ⟨rfl, fun x hx => nomatch hx⟩
  obtain ⟨x, ss, hx, checked, stopped, through⟩ := cancellation_honoured looping knock _ honest uncancelled
  refine ⟨honest, uncancelled, ?_⟩
  rw [applied] at hx
  cases x with
  | error err => cases hx
  | ok c =>
    cases hx
    cases checked with
    | applied hs ht =>
      cases hs
      cases ht
      rw [requestStages] at stopped through
      refine ⟨fun n hn => ?_, rs, (through 3 (Nat.le_refl 3)).1.trans applied⟩
      obtain ⟨d', hr, hstore⟩ := stopped n hn
      exact ⟨d', hr, hstore.trans (prepared _)⟩

end LoanLedger.Engine
