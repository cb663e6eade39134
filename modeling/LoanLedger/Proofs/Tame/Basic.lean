import LoanLedger.Proofs.Statement

/-!
# How work fails

* `Cause`, `Error.cause` : what an error comes from;
* `Desk.Plans d e` : a fault at the desk says that a call fails so; `Desk.Spares d k` : none pretends a failure
  of the kind `k`;
* `Desk.traces d` : the traces of events in the log; `Desk.Quiet d d'` : they are the same, and so is all but
  rows, log and session;
* `Tame cs x` : the work `x` writes no trace, and fails only of the causes `cs`, unless a fault says so;
* `Meets cs cs' e y` : what `y` does with an error `e` of work that is tame in `cs`, so that the whole is in `cs'`;
* `Tame.guarded` : a refusal of the storage is no cause any more where the work is guarded.
-/

namespace LoanLedger.Ledger

/-! ## Causes -/

/-- What an error comes from. -/
inductive Cause where
  | failure (k : Failure.Kind)
  | storage
  | tooLarge
  | clock
  | calendar
  | content
  | word
  | patience
  | stuck
  | external
  deriving DecidableEq

def Error.cause : Error → Cause
  | failure f => .failure f.kind
  | storage _ => .storage
  | tooLarge => .tooLarge
  | clock _ => .clock
  | outOfCalendar | firstDay => .calendar
  | content _ => .content
  | unknownWord .. => .word
  | patience _ => .patience
  | stuck => .stuck
  | external _ => .external

theorem Error.cause_of_kind {e : Error} {k : Failure.Kind} (h : e.kind? = some k) : e.cause = .failure k := by
  cases e <;> cases h
  rfl

variable {α β γ : Type} {x y : Work α} {f : α → Work β} {d d₁ d' : Desk} {e : Error} {p : Point}
  {cs cs' : List Cause} {k : Failure.Kind}

/-! ## Faults that say so -/

theorem Effect.verdict_failed {n : Nat} {x : Effect} (h : x.verdict n = .failed e) : ∃ m, x = .fail m e := by
  cases x with
  | miss m =>
    rw [Effect.verdict] at h
    split at h <;> cases h
  | fail c e' =>
    cases c with
    | none => cases h; exact ⟨_, rfl⟩
    | some c =>
      rw [Effect.verdict] at h
      split at h <;> cases h
      exact ⟨_, rfl⟩

theorem judge_failed {fs : List Fault} (h : (judge p fs).2 = .failed e) :
    ∃ n, (p, Effect.fail n e) ∈ fs.map Fault.plan := by
  induction fs with
  | nil => cases h
  | cons f fs ih =>
    have tail (h : (judge p fs).2 = .failed e) : ∃ n, (p, Effect.fail n e) ∈ (f :: fs).map Fault.plan :=
      (ih h).imp fun n hn => List.mem_cons_of_mem _ hn
    unfold judge at h
    split at h
    · next hp =>
      dsimp only at h
      split at h
      · exact tail h
      · obtain ⟨n, hn⟩ := Effect.verdict_failed h
        exact ⟨n, by simp [Fault.plan, hp, hn]⟩
    · exact tail h

/-- A fault says that a call fails so. -/
def Desk.Plans (d : Desk) (e : Error) : Prop :=
  ∃ p n, (p, Effect.fail n e) ∈ d.plan

theorem Desk.Beside.plans (h : d.Beside d') : d'.Plans e ↔ d.Plans e := by
  rw [Plans, Plans, h.plan]

theorem Desk.not_plans (hd : d.faults = []) : ¬ d.Plans e := by
  rintro ⟨p, n, hn⟩
  rw [Desk.plan, hd] at hn
  cases hn

def Desk.Spares (d : Desk) (k : Failure.Kind) : Prop :=
  ∀ e, d.Plans e → e.kind? ≠ some k

theorem Desk.spares_of_faultless (hd : d.faults = []) (k : Failure.Kind) : d.Spares k :=
  fun _ he => absurd he (Desk.not_plans hd)

theorem Desk.Beside.spares (h : d.Beside d') (hd : d.Spares k) : d'.Spares k :=
  fun e he => hd e (h.plans.mp he)

/-! ## Traces -/

def Desk.traces (d : Desk) : List Noted :=
  d.log.filter (·.record.message = "workflow_transition")

/-- All but rows, log and session is the same, and no trace was written. -/
structure Desk.Quiet (d d' : Desk) : Prop extends Desk.Beside d d' where
  traces : d'.traces = d.traces

namespace Desk.Quiet

theorem of_log (h : d.Beside d') (hl : d'.log = d.log) : d.Quiet d' :=
  ⟨h, congrArg (List.filter _) hl⟩

theorem refl (d : Desk) : d.Quiet d := of_log (.refl d) rfl

theorem trans (h : d.Quiet d₁) (h' : d₁.Quiet d') : d.Quiet d' :=
  ⟨h.toBeside.trans h'.toBeside, h'.traces.trans h.traces⟩

theorem passed (d : Desk) (p : Point) : d.Quiet (d.passed p) := of_log (Frame.pass d p) rfl

end Desk.Quiet

theorem note_quiet {r : Log.Record} (h : r.message ≠ "workflow_transition") : Kept Desk.Quiet Unit (note r) := by
  intro d
  change d.Quiet (if d.setup.passes r.level then _ else _)
  split
  · refine ⟨Frame.log d _, ?_⟩
    simp [Desk.traces, List.filter_append, h]
  · exact .refl d

/-! ## Tame work -/

/-- The work writes no trace, and fails only of some causes, unless a fault says so. -/
structure Tame (cs : List Cause) (x : Work α) : Prop where
  quiet : Kept Desk.Quiet α x
  error : ∀ {d e d'}, x d = .error e d' → e.cause ∈ cs ∨ d.Plans e

/-- What is done with an error of work that fails of the causes `cs`, so that the whole fails of `cs'`: it is
thrown again, if that is a cause there, or the work fails of those causes itself. -/
structure Meets (cs cs' : List Cause) (e : Error) (y : Work α) : Prop where
  quiet : Kept Desk.Quiet α y
  error : ∀ {d e' d'}, y d = .error e' d' → (e' = e ∧ (e.cause ∈ cs → e.cause ∈ cs')) ∨
    e'.cause ∈ cs' ∨ d.Plans e'

theorem Tame.meets (h : Tame cs' y) : Meets cs cs' e y :=
  ⟨h.quiet, fun he => .inr (h.error he)⟩

theorem Meets.rethrow (h : e.cause ∈ cs → e.cause ∈ cs') : Meets cs cs' e (throw e : Work α) :=
  ⟨fun d => .refl d, fun he => by cases he; exact .inl ⟨rfl, h⟩⟩

namespace Tame

theorem kind_ne (hx : Tame cs x) (hk : .failure k ∉ cs) (hd : d.Spares k) (h : x d = .error e d') :
    e.kind? ≠ some k := by
  intro he
  rcases hx.error h with hc | hp
  · rw [Error.cause_of_kind he] at hc
    exact hk hc
  · exact hd e hp he

theorem up (hx : Tame cs x) (h : cs ⊆ cs') : Tame cs' x :=
  ⟨hx.quiet, fun he => (hx.error he).imp_left fun hc => h hc⟩

theorem of_no_error (hx : Kept Desk.Quiet α x) (h : ∀ {d e d'}, x d ≠ .error e d') : Tame cs x :=
  ⟨hx, fun he => absurd he h⟩

theorem pure (a : α) : Tame cs (pure a : Work α) := of_no_error (fun d => .refl d) nofun

theorem throw (c : Cause) (he : e.cause = c) (hc : c ∈ cs) : Tame cs (throw e : Work α) :=
  ⟨fun d => .refl d, fun h => by cases h; exact .inl (he ▸ hc)⟩

theorem bind (hx : Tame cs x) (hf : ∀ a, Tame cs (f a)) : Tame cs (x >>= f) := by
  refine ⟨.intro (fun d b d' h => ?_) (fun d e d' h => ?_), fun {d e d'} he => ?_⟩
  · obtain ⟨a, d₁, h₁, h₂⟩ := Work.bind_ok h
    exact (hx.quiet.ok h₁).trans ((hf a).quiet.ok h₂)
  · rcases Work.bind_error h with h | ⟨a, d₁, h₁, h₂⟩
    · exact hx.quiet.error h
    · exact (hx.quiet.ok h₁).trans ((hf a).quiet.error h₂)
  · rcases Work.bind_error he with he | ⟨a, d₁, h₁, h₂⟩
    · exact hx.error he
    · exact ((hf a).error h₂).imp_right (hx.quiet.ok h₁).plans.mp

theorem map {g : α → β} (hx : Tame cs x) : Tame cs (g <$> x) := by
  rw [map_eq_pure_bind]
  exact hx.bind fun a => pure (g a)

theorem recover {handler : Error → Work α} (hx : Tame cs x) (hcs : ∀ e, Meets cs cs' e (handler e)) :
    Tame cs' (x.recover handler) := by
  refine ⟨.intro (fun d a d' h => ?_) (fun d e d' h => ?_), fun {d e d'} he => ?_⟩
  · rcases Work.recover_ok h with h | ⟨e, d₁, h₁, h₂⟩
    · exact hx.quiet.ok h
    · exact (hx.quiet.error h₁).trans ((hcs e).quiet.ok h₂)
  · obtain ⟨e₁, d₁, h₁, h₂⟩ := Work.recover_error h
    exact (hx.quiet.error h₁).trans ((hcs e₁).quiet.error h₂)
  · obtain ⟨e₁, d₁, h₁, h₂⟩ := Work.recover_error he
    rcases (hcs e₁).error h₂ with ⟨rfl, hc⟩ | h | h
    · exact (hx.error h₁).imp_left hc
    · exact .inl h
    · exact .inr ((hx.quiet.error h₁).plans.mp h)

theorem attempt (hx : Tame cs x) : Kept Desk.Quiet (Except Error α) x.attempt :=
  .attempt hx.quiet

/-- What follows an attempt deals with its failures. -/
theorem attempt_bind {f : Except Error α → Work β} (hx : Tame cs x) (hok : ∀ a, Tame cs' (f (.ok a)))
    (herror : ∀ e, Meets cs cs' e (f (.error e))) : Tame cs' (x.attempt >>= f) := by
  have hf : ∀ r, Kept Desk.Quiet β (f r) := fun
    | .ok a => (hok a).quiet
    | .error e => (herror e).quiet
  refine ⟨.intro (fun d b d' h => ?_) (fun d e d' h => ?_), fun {d e d'} he => ?_⟩
  · obtain ⟨r, d₁, h₁, h₂⟩ := Work.bind_ok h
    exact (hx.attempt.ok h₁).trans ((hf r).ok h₂)
  · rcases Work.bind_error h with h | ⟨r, d₁, h₁, h₂⟩
    · exact absurd h Work.attempt_ne_error
    · exact (hx.attempt.ok h₁).trans ((hf r).error h₂)
  · rcases Work.bind_error he with he | ⟨r, d₁, h₁, h₂⟩
    · exact absurd he Work.attempt_ne_error
    · have plans := (hx.attempt.ok h₁).plans (e := e)
      rcases Work.attempt_ok h₁ with ⟨a, rfl, -⟩ | ⟨e₁, rfl, hx₁⟩
      · exact ((hok a).error h₂).imp_right plans.mp
      · rcases (herror e₁).error h₂ with ⟨rfl, hc⟩ | h | h
        · exact (hx.error hx₁).imp_left hc
        · exact .inl h
        · exact .inr (plans.mp h)

theorem ofExcept {r : Except Error α} (h : ∀ e, r = .error e → e.cause ∈ cs) : Tame cs (Work.ofExcept r) := by
  cases r with
  | ok a => exact pure a
  | error e => exact throw e.cause rfl (h e rfl)

theorem ite {c : Prop} [Decidable c] (hx : Tame cs x) (hy : Tame cs y) : Tame cs (if c then x else y) := by
  split
  · exact hx
  · exact hy

theorem mapM {h : γ → Work β} (hh : ∀ c, Tame cs (h c)) (l : List γ) : Tame cs (l.mapM h) := by
  induction l with
  | nil =>
    rw [List.mapM_nil]
    exact pure []
  | cons c l ih =>
    rw [List.mapM_cons]
    exact (hh c).bind fun b => ih.bind fun bs => pure _

end Tame

theorem Meets.rethrowAfter {z : Work Unit} (hz : Tame cs' z) (h : e.cause ∈ cs → e.cause ∈ cs') :
    Meets cs cs' e (do z; throw e : Work α) := by
  refine ⟨.intro (fun d a d' hr => ?_) (fun d e' d' hr => ?_), fun {d e' d'} he => ?_⟩
  · obtain ⟨_, _, -, hr⟩ := Work.bind_ok hr
    cases hr
  · rcases Work.bind_error hr with hr | ⟨_, d₁, h₁, hr⟩
    · exact hz.quiet.error hr
    · cases hr
      exact hz.quiet.ok h₁
  · rcases Work.bind_error he with he | ⟨_, _, -, he⟩
    · exact .inr (hz.error he)
    · cases he
      exact .inl ⟨rfl, h⟩

namespace Tame

/-! ## Steps -/

/-- What only changes rows, session or what was drawn. -/
theorem modify {g : Desk → Desk} (hg : ∀ d, Desk.Beside d (g d)) (hl : ∀ d, (g d).log = d.log) :
    Tame cs (modify g : Work Unit) :=
  of_no_error (fun d => .of_log (hg d) (hl d)) nofun

theorem know (k : Known → Known) : Tame cs (know k) := modify (fun d => Frame.know d _) fun _ => rfl

theorem resume (s : Session) : Tame cs (resume s) := modify (fun d => Wide.session d _) fun _ => rfl

theorem begin : Tame cs begin := modify (fun d => Wide.session d _) fun _ => rfl

theorem breakSession : Tame cs breakSession := modify (fun d => Frame.broken d) fun _ => rfl

theorem setTables (t : Tables) : Tame cs (setTables t) := modify (fun d => Wide.session d _) fun _ => rfl

theorem get : Tame cs (get : Work Desk) := of_no_error (fun d => .refl d) nofun

theorem session : Tame cs session := get.bind fun d => pure d.session

theorem freshId : Tame cs freshId := of_no_error (fun d => .of_log (Issuing.freshId d) rfl) nofun

theorem checkPasses : Tame cs checkPasses := by
  refine of_no_error (fun d => .of_log (Kept.checkPasses (R := Desk.Beside) d) ?_) nofun
  unfold Ledger.checkPasses
  rw [Work.desk_of_ok (Work.modifyGet_run _ d)]
  split <;> rfl

theorem emit {m : String} (h : m ≠ "workflow_transition") (l : Log.Level) (s : String) (fs : List (String × Value)) :
    Tame cs (emit l s m fs) := by
  refine of_no_error (note_quiet h) fun {d e d'} he => ?_
  obtain ⟨log, hr⟩ := emit_run l s m fs d
  rw [hr] at he
  cases he

theorem call {missed : α} (hx : Tame cs x) : Tame cs (call p missed x) := by
  refine ⟨.intro (fun d a d' h => ?_) (fun d e d' h => ?_), fun {d e d'} he => ?_⟩
  · rcases call_ok h with h | ⟨-, -, rfl⟩
    · exact (Desk.Quiet.passed d p).trans (hx.quiet.ok h)
    · exact .passed d p
  · rcases call_error h with h | rfl
    · exact (Desk.Quiet.passed d p).trans (hx.quiet.error h)
    · exact .passed d p
  · rw [call_run] at he
    split at he
    · exact (hx.error he).imp_right (Desk.Quiet.passed d p).plans.mp
    · cases he
    · next hf =>
      cases he
      obtain ⟨n, hn⟩ := judge_failed hf
      exact .inr ⟨p, n, hn⟩

theorem statement (hs : .storage ∈ cs) : Tame cs statement := by
  refine session.bind fun s => ?_
  split
  · exact (throw .storage rfl hs).bind fun _ => (pure ()).call
  · exact (pure ()).call

theorem query (hs : .storage ∈ cs) (g : Tables → α) : Tame cs (query g) :=
  (statement hs).bind fun _ => session.bind fun s => pure (g s.tables)

theorem change {g : Tables → Except Error Tables} (hs : .storage ∈ cs)
    (hg : ∀ t e, g t = .error e → e.cause ∈ cs) : Tame cs (change g) := by
  have changed : Tame cs (do
      Ledger.statement
      let t ← Work.ofExcept (g (← Ledger.session).tables)
      Ledger.setTables t) :=
    (statement hs).bind fun _ => session.bind fun s => (ofExcept fun e he => hg _ e he).bind fun t => setTables t
  exact changed.recover fun e => .rethrowAfter breakSession id

theorem insert {g : Tables → Option Tables} (hs : .storage ∈ cs) : Tame cs (insert g) := by
  refine change hs fun t e he => ?_
  split at he <;> cases he
  exact hs

theorem savepoint (hs : .storage ∈ cs) (hx : Tame cs x) (hy : Tame cs y) : Tame cs (savepoint x y) := by
  have released : Tame cs (do let a ← x; Ledger.statement; Pure.pure a) :=
    hx.bind fun a => (statement hs).bind fun _ => pure a
  refine (statement hs).bind fun _ => session.bind fun s => released.recover fun e => ?_
  split
  · exact ((resume s).bind fun _ => hy).meets
  · exact .rethrow id

theorem guarded (cs : List Cause) {operation : String} (hx : Tame cs x) (hu : .failure .ledgerUnavailable ∈ cs')
    (hc : ∀ c ∈ cs, c = .storage ∨ c ∈ cs') : Tame cs' (guarded operation x) := by
  refine hx.recover fun e => ?_
  split
  · exact ((emit (by simp) _ _ _).bind fun _ => throw (.failure .ledgerUnavailable) rfl hu).meets
  · next hn =>
    refine .rethrow fun h => (hc _ h).resolve_left fun he => ?_
    cases e with
    | storage r => exact hn r rfl
    | _ => cases he

theorem now (hc : .clock ∈ cs) : Tame cs now := by
  refine get.bind fun d => ofExcept fun e he => ?_
  cases ht : d.clock.now? with
  | ok t => rw [ht] at he; cases he
  | error c => rw [ht] at he; cases he; exact hc

theorem utc (hc : .calendar ∈ cs) (t : Calendar.Timestamp) : Tame cs (utc t) := by
  unfold Ledger.utc
  split
  · exact throw .calendar rfl hc
  · split
    · exact pure _
    · exact throw .calendar rfl hc

end Tame

end LoanLedger.Ledger
