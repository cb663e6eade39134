import LoanLedger.Proofs.Statement

/-!
# Outages

* `Refusal.isRace r` : somebody else was first: a unique key is taken, or a row was changed;
* `Desk.outages d` : how many statements the storage has failed so far for any other reason;
* `Reports E x` : whenever the storage fails a statement of the work `x` so, `x` ends there with an error that is `E`;
* `Ends E x` : the work `x` ends with an error that is `E` in any case;
* `Reports.bind`, `Reports.recover`, `Reports.guarded`, … : so composed work reports outages as its parts do.
-/

namespace LoanLedger.Ledger

variable {α β γ : Type} {x y : Work α} {f : α → Work β} {d d' d₁ : Desk} {e : Error} {p : Point}
  {E E' : Error → Prop}

/-! ## Outages -/

/-- Somebody else was first: a unique key is taken, or a row was changed. -/
def Refusal.isRace : Refusal → Bool
  | conflict | stale => true
  | _ => false

/-- The storage failed, and not because somebody else was first. -/
def Error.IsOutage (e : Error) : Prop := ∃ r, e = .storage r ∧ r.isRace = false

/-- The caller is told that the ledger is unavailable. -/
def Error.IsUnavailable (e : Error) : Prop := ∃ operation, e = .failure (.ledgerUnavailable operation)

def Error.TellsOutage (e : Error) : Prop := e.IsOutage ∨ e.IsUnavailable

theorem not_isOutage_conflict : ¬ (Error.storage .conflict).IsOutage := by
  rintro ⟨r, hr, hn⟩
  cases hr
  cases hn

theorem not_tellsOutage_conflict : ¬ (Error.storage .conflict).TellsOutage := by
  rintro (h | ⟨operation, ho⟩)
  · exact not_isOutage_conflict h
  · cases ho

/-- How often the storage has failed a statement because of this fault. -/
def Fault.outages (f : Fault) : Nat :=
  match f.point, f.effect with
  | .statement, .fail n (.storage r) =>
    if r.isRace then 0
    else match n with
      | none => f.passed
      | some n => if n ≤ f.passed then 1 else 0
  | _, _ => 0

/-- How many statements these faults have failed so far. -/
def Fault.allOutages (fs : List Fault) : Nat := fs.foldr (fun f n => f.outages + n) 0

/-- How many statements the storage has failed so far. -/
def Desk.outages (d : Desk) : Nat := Fault.allOutages d.faults

@[simp]
theorem Fault.allOutages_cons (f : Fault) (fs : List Fault) : allOutages (f :: fs) = f.outages + allOutages fs := rfl

/-- A fault that is passed counts on only where it fails a statement. -/
theorem Fault.outages_pass (f : Fault) :
    Fault.outages { f with passed := f.passed + 1 } = f.outages ∨
      f.point = .statement ∧ ∃ e, f.effect.verdict (f.passed + 1) = .failed e ∧ e.IsOutage := by
  obtain ⟨point, effect, passed⟩ := f
  unfold outages
  dsimp only
  split
  · next n r =>
    cases hr : r.isRace with
    | true => exact .inl rfl
    | false => cases n with
      | none => exact .inr ⟨rfl, _, rfl, r, rfl, hr⟩
      | some n =>
        by_cases hn : passed + 1 = n
        · exact .inr ⟨rfl, _, by rw [Effect.verdict, if_pos hn], r, rfl, hr⟩
        · left
          have same : n ≤ passed + 1 ↔ n ≤ passed := by omega
          simp only [same]
  · exact .inl rfl

/-- A call leaves the outages that are planned as they are, or it is a statement that meets one. -/
theorem judge_outages (p : Point) (fs : List Fault) :
    Fault.allOutages (judge p fs).1 = Fault.allOutages fs ∨
      p = .statement ∧ ∃ e, (judge p fs).2 = .failed e ∧ e.IsOutage := by
  induction fs with
  | nil => exact .inl rfl
  | cons f fs ih =>
    unfold judge
    split
    · next hp =>
      subst hp
      have passed := f.outages_pass
      dsimp only
      split
      · next hv =>
        rcases passed with hf | ⟨-, e, he, -⟩
        · rcases ih with ih | ih
          · left
            rw [Fault.allOutages_cons, Fault.allOutages_cons, hf, ih]
          · exact .inr ih
        · rw [hv] at he
          cases he
      · rcases passed with hf | ⟨hs, e, he, ho⟩
        · left
          rw [Fault.allOutages_cons, Fault.allOutages_cons, hf]
        · exact .inr ⟨hs, e, he, ho⟩
    · rcases ih with ih | ih
      · left
        rw [Fault.allOutages_cons, Fault.allOutages_cons, ih]
      · exact .inr ih

theorem Desk.outages_of_faults (h : d'.faults = d.faults) : d'.outages = d.outages := by
  rw [Desk.outages, h, Desk.outages]

theorem Desk.passed_outages (hp : p ≠ .statement) : (d.passed p).outages = d.outages :=
  (judge_outages p d.faults).resolve_right fun h => hp h.1

/-! ## Work that reports outages -/

/-- Whenever the storage fails a statement, the work ends with an error of some kind. -/
structure Reports (E : Error → Prop) (x : Work α) : Prop where
  ok : ∀ {d a d'}, x d = .ok a d' → d'.outages = d.outages
  error : ∀ {d e d'}, x d = .error e d' → d'.outages = d.outages ∨ E e

def Ends (E : Error → Prop) (x : Work α) : Prop := ∀ d, ∃ e d', x d = .error e d' ∧ E e

theorem Ends.of_throw (h : E e) : Ends E (throw e : Work α) := fun d => ⟨e, d, rfl, h⟩

theorem Ends.of_emit {l : Log.Level} {s m : String} {fs : List (String × Value)} (h : E e) :
    Ends E (do emit l s m fs; throw e : Work α) := by
  intro d
  obtain ⟨log, hr⟩ := emit_run l s m fs d
  exact ⟨e, _, Work.bind_of_ok hr, h⟩

namespace Reports

theorem up (hx : Reports E x) (h : ∀ e, E e → E' e) : Reports E' x :=
  ⟨hx.ok, fun he => (hx.error he).imp_right (h _)⟩

/-- Work that leaves the faults alone has no outages. -/
theorem of_faults (h : ∀ d, (x.desk d).faults = d.faults) : Reports E x where
  ok hr := Desk.outages_of_faults (Work.desk_of_ok hr ▸ h _)
  error hr := .inl (Desk.outages_of_faults (Work.desk_of_error hr ▸ h _))

theorem pure (a : α) : Reports E (pure a : Work α) := of_faults fun _ => rfl

theorem throw (e : Error) : Reports E (throw e : Work α) := of_faults fun _ => rfl

theorem ofExcept (r : Except Error α) : Reports E (Work.ofExcept r) := by
  cases r with
  | ok a => exact pure a
  | error e => exact throw e

theorem bind (hx : Reports E x) (hf : ∀ a, Reports E (f a)) : Reports E (x >>= f) where
  ok h := by
    obtain ⟨a, d₁, h₁, h₂⟩ := Work.bind_ok h
    exact ((hf a).ok h₂).trans (hx.ok h₁)
  error h := by
    rcases Work.bind_error h with h | ⟨a, d₁, h₁, h₂⟩
    · exact hx.error h
    · exact ((hf a).error h₂).imp_left fun hs => hs.trans (hx.ok h₁)

theorem map {g : α → β} (hx : Reports E x) : Reports E (g <$> x) := by
  rw [map_eq_pure_bind]
  exact hx.bind fun a => pure (g a)

theorem ite {c : Prop} [Decidable c] (hx : Reports E x) (hy : Reports E y) : Reports E (if c then x else y) := by
  split
  · exact hx
  · exact hy

theorem mapM {h : γ → Work β} (hh : ∀ c, Reports E (h c)) (l : List γ) : Reports E (l.mapM h) := by
  induction l with
  | nil =>
    rw [List.mapM_nil]
    exact pure []
  | cons c l ih =>
    rw [List.mapM_cons]
    exact (hh c).bind fun b => ih.bind fun bs => pure _

/-- What deals with failures must go on to report those that tell of an outage. -/
theorem recover {handler : Error → Work α} (hx : Reports E x) (hh : ∀ e, Reports E' (handler e))
    (he : ∀ e, E e → Ends E' (handler e)) : Reports E' (x.recover handler) where
  ok h := by
    rcases Work.recover_ok h with h | ⟨e, d₁, h₁, h₂⟩
    · exact hx.ok h
    · rcases hx.error h₁ with hs | hE
      · exact ((hh e).ok h₂).trans hs
      · obtain ⟨e', d'', hr, -⟩ := he e hE d₁
        cases hr.symm.trans h₂
  error h := by
    obtain ⟨e, d₁, h₁, h₂⟩ := Work.recover_error h
    rcases hx.error h₁ with hs | hE
    · exact ((hh e).error h₂).imp_left fun hs' => hs'.trans hs
    · obtain ⟨e', d'', hr, hE'⟩ := he e hE d₁
      cases hr.symm.trans h₂
      exact .inr hE'

/-- What follows an attempt must end in an outage where the attempt did. -/
theorem attempt_bind {f : Except Error α → Work β} (hx : Reports E x) (hf : ∀ r, Reports E' (f r))
    (he : ∀ e, E e → Ends E' (f (.error e))) : Reports E' (x.attempt >>= f) where
  ok h := by
    obtain ⟨r, d₁, h₁, h₂⟩ := Work.bind_ok h
    rcases Work.attempt_ok h₁ with ⟨a, rfl, hx'⟩ | ⟨e, rfl, hx'⟩
    · exact ((hf _).ok h₂).trans (hx.ok hx')
    · rcases hx.error hx' with hs | hE
      · exact ((hf _).ok h₂).trans hs
      · obtain ⟨e', d'', hr, -⟩ := he e hE d₁
        cases hr.symm.trans h₂
  error h := by
    rcases Work.bind_error h with h | ⟨r, d₁, h₁, h₂⟩
    · exact absurd h Work.attempt_ne_error
    · rcases Work.attempt_ok h₁ with ⟨a, rfl, hx'⟩ | ⟨e, rfl, hx'⟩
      · exact ((hf _).error h₂).imp_left fun hs => hs.trans (hx.ok hx')
      · rcases hx.error hx' with hs | hE
        · exact ((hf _).error h₂).imp_left fun hs' => hs'.trans hs
        · obtain ⟨e', d'', hr, hE'⟩ := he e hE d₁
          cases hr.symm.trans h₂
          exact .inr hE'

/-! ## Steps -/

theorem get : Reports E (get : Work Desk) := of_faults fun _ => rfl

theorem session : Reports E session := get.bind fun d => pure d.session

theorem of_modify {g : Desk → Desk} (hg : ∀ d, (g d).faults = d.faults) :
    Reports E (modify g : Work Unit) := of_faults hg

theorem know (k : Known → Known) : Reports E (know k) := of_modify fun _ => rfl

theorem freshId : Reports E freshId := of_faults fun _ => rfl

theorem begin : Reports E begin := of_modify fun _ => rfl

theorem emit (l : Log.Level) (s m : String) (fs : List (String × Value)) : Reports E (emit l s m fs) := by
  refine of_faults fun d => ?_
  obtain ⟨log, hr⟩ := emit_run l s m fs d
  rw [Work.desk_of_ok hr]

theorem checkPasses : Reports E checkPasses := by
  refine of_faults fun d => ?_
  unfold Ledger.checkPasses
  rw [Work.desk_of_ok (Work.modifyGet_run _ d)]
  split <;> rfl

theorem now : Reports E now := get.bind fun _ => ofExcept _

theorem utc (t : Calendar.Timestamp) : Reports E (utc t) := by
  unfold Ledger.utc
  split
  · exact throw _
  · split
    · exact pure _
    · exact throw _

/-! ## Calls and statements -/

theorem call {missed : α} (hp : p ≠ .statement) (hx : Reports E x) : Reports E (call p missed x) where
  ok h := by
    rcases call_ok h with h | ⟨-, -, rfl⟩
    · exact (hx.ok h).trans (Desk.passed_outages hp)
    · exact Desk.passed_outages hp
  error h := by
    rcases call_error h with h | rfl
    · exact (hx.error h).imp_left fun hs => hs.trans (Desk.passed_outages hp)
    · exact .inl (Desk.passed_outages hp)

/-- A statement that the storage fails ends with an outage. -/
theorem statement : Reports Error.IsOutage statement := by
  have sent : Reports Error.IsOutage (Ledger.call .statement () (Pure.pure ())) := by
    refine ⟨fun {d a d'} h => ?_, fun {d e d'} h => ?_⟩
    · have counted := judge_outages .statement d.faults
      rw [call_run] at h
      split at h
      · next hv =>
        cases h
        exact counted.resolve_right fun ⟨_, e, he, _⟩ => by rw [hv] at he; cases he
      · next hv =>
        cases h
        exact counted.resolve_right fun ⟨_, e, he, _⟩ => by rw [hv] at he; cases he
      · cases h
    · have counted := judge_outages .statement d.faults
      rw [call_run] at h
      split at h
      · cases h
      · cases h
      · next hv =>
        cases h
        refine counted.imp_right fun ⟨_, e', he, ho⟩ => ?_
        cases hv.symm.trans he
        exact ho
  refine session.bind fun s => ?_
  split
  · exact (throw _).bind fun _ => sent
  · exact sent

theorem query (g : Tables → α) : Reports Error.IsOutage (query g) :=
  statement.bind fun _ => session.bind fun s => pure (g s.tables)

theorem change (g : Tables → Except Error Tables) : Reports Error.IsOutage (change g) := by
  have changed : Reports Error.IsOutage (do
      Ledger.statement
      let t ← Work.ofExcept (g (← Ledger.session).tables)
      Ledger.setTables t) :=
    statement.bind fun _ => session.bind fun s => (ofExcept _).bind fun t => of_modify fun _ => rfl
  have broken : Reports Error.IsOutage breakSession := of_modify fun _ => rfl
  exact changed.recover (fun e => broken.bind fun _ => throw e) fun e he d => ⟨e, _, Work.bind_of_ok rfl, he⟩

theorem insert (g : Tables → Option Tables) : Reports Error.IsOutage (insert g) := change _

/-- An outage within a savepoint is no conflict, so that it is not dealt with there. -/
theorem savepoint (hs : ∀ e, e.IsOutage → E e) (hc : ¬ E (.storage .conflict)) (hx : Reports E x)
    (hy : Reports E y) : Reports E (savepoint x y) := by
  have sent : Reports E Ledger.statement := statement.up hs
  have released : Reports E (do let a ← x; Ledger.statement; Pure.pure a) :=
    hx.bind fun a => sent.bind fun _ => pure a
  have back (s : Session) : Reports E (resume s) := of_modify fun _ => rfl
  refine sent.bind fun _ => session.bind fun s => released.recover (fun e => ?_) fun e he => ?_
  · split
    · exact (back s).bind fun _ => hy
    · exact throw e
  · split
    · exact absurd he hc
    · exact .of_throw he

theorem savepoint_tells (hx : Reports Error.TellsOutage x) (hy : Reports Error.TellsOutage y) :
    Reports Error.TellsOutage (Ledger.savepoint x y) :=
  savepoint (fun _ => .inl) not_tellsOutage_conflict hx hy

/-- Where the work is guarded, the caller is told that the ledger is unavailable. -/
theorem guarded {operation : String} (hx : Reports Error.TellsOutage x) :
    Reports Error.IsUnavailable (guarded operation x) := by
  refine hx.recover (fun e => ?_) fun e he => ?_
  · split
    · exact (emit _ _ _ _).bind fun _ => throw _
    · exact throw _
  · rcases he with ⟨r, rfl, -⟩ | ⟨o, rfl⟩
    · exact .of_emit ⟨operation, rfl⟩
    · exact .of_throw ⟨o, rfl⟩

theorem guarded_of_statements {operation : String} (hx : Reports Error.IsOutage x) :
    Reports Error.IsUnavailable (Ledger.guarded operation x) :=
  (hx.up fun _ => .inl).guarded

/-! ## Brackets -/

theorem finally_ {g : Desk → Desk} (hx : Reports E x) (hg : ∀ d, (g d).faults = d.faults) :
    Reports E (x.finally_ (modify g)) where
  ok {d a d'} h := by
    cases hr : x d with
    | ok b d₁ =>
      rw [Work.finally_of_ok hr] at h
      cases h
      exact (Desk.outages_of_faults (hg d₁)).trans (hx.ok hr)
    | error e d₁ =>
      rw [Work.finally_of_error hr] at h
      cases h
  error {d e d'} h := by
    cases hr : x d with
    | ok b d₁ =>
      rw [Work.finally_of_ok hr] at h
      cases h
    | error e d₁ =>
      rw [Work.finally_of_error hr] at h
      cases h
      exact (hx.error hr).imp_left (Desk.outages_of_faults (hg d₁)).trans

theorem inSession (hx : Reports E x) : Reports E (Engine.inSession x) :=
  begin.bind fun _ => hx.finally_ fun _ => rfl

theorem withContext {fields : List (String × Value)} (hx : Reports E x) : Reports E (withContext fields x) :=
  get.bind fun _ => Reports.bind (of_modify fun _ => rfl) fun _ => hx.finally_ fun _ => rfl

theorem lockFailed (loanId : String) (timeout : Value) (r : Locks.Error) :
    Reports E (Engine.lockFailed loanId timeout r : Work α) := by
  cases r with
  | timedOut => exact (emit _ _ _ _).bind fun _ => throw _
  | stuck => exact throw _
  | patience e => exact throw _

theorem withLock {loanId : String} {timeout : Value} (hx : Reports E x) :
    Reports E (Engine.withLock loanId timeout x) := by
  have taken : Reports E (modifyGet fun d : Desk => ((d.locks.hold loanId timeout).2,
      { d with locks := (d.locks.hold loanId timeout).1 }) : Work (Except Locks.Error Unit)) := of_faults fun _ => rfl
  refine taken.bind fun r => ?_
  cases r with
  | error e => exact lockFailed loanId timeout e
  | ok u => exact hx.finally_ fun _ => rfl

end Reports

end LoanLedger.Ledger
