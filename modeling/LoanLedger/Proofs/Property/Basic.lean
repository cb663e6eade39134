import LoanLedger.Engine.Basic

/-!
# Properties of work

What is said of all work, however it is composed, is proved of its steps.

* `Property`, `Holds P x` : a property that work can have, and that the work `x` has it;
* `Closed P` : the steps that neither read nor change rows have the property, and composed work inherits it;
* `Stable P` : besides, readings of the rows have it;
* `Ample P` : besides, the steps that change the rows of the session have it;
* `Bracketed P` : the steps that begin, check and commit have the property, and work in a context of the log or
  under a lock inherits it; `Full P` : all of this, and drawing an id has it;
* the instances of `Holds` for what sessions, statements and transactions are composed of.
-/

namespace LoanLedger.Ledger

/-- A property that work can have. -/
abbrev Property := (α : Type) → Work α → Prop

/-- The work has the property. -/
class Holds (P : Property) {α : Type} (x : Work α) : Prop where
  holds : P α x

/-- The steps that neither read nor change rows have the property, and composed work inherits it. -/
class Closed (P : Property) : Prop where
  pure {α : Type} (a : α) : P α (pure a)
  throw {α : Type} (e : Error) : P α (throw e)
  bind {α β : Type} {x : Work α} {f : α → Work β} : P α x → (∀ a, P β (f a)) → P β (x >>= f)
  recover {α : Type} {x : Work α} {handler : Error → Work α} :
    P α x → (∀ e, P α (handler e)) → P α (x.recover handler)
  attempt {α : Type} {x : Work α} : P α x → P (Except Error α) x.attempt
  /-- What the desk shows, apart from its log, its faults, the checks that are left, and the rows. -/
  glance {α : Type} (f : Desk → α) :
    (∀ d log faults checksLeft store tables,
      f { d with log, faults, checksLeft, store, session := { d.session with tables } } = f d) → P α (f <$> get)
  note (r : Log.Record) : P Unit (note r)
  pass (p : Point) : P Verdict (pass p)
  know (k : Known → Known) : P Unit (know k)
  breakSession : P Unit breakSession
  savepoint {α : Type} {x y : Work α} : P Unit statement → P α x → P α y → P α (savepoint x y)

/-- Besides, readings of the rows have the property. -/
class Stable (P : Property) : Prop extends Closed P where
  /-- What the desk shows, apart from its log, its faults and the checks that are left. -/
  read {α : Type} (f : Desk → α) :
    (∀ d log faults checksLeft, f { d with log, faults, checksLeft } = f d) → P α (f <$> get)
  glance f hf := read f fun d log faults checksLeft => hf d log faults checksLeft d.store d.session.tables

/-- Besides, the steps that change the rows of the session have the property. -/
class Ample (P : Property) : Prop extends Stable P where
  setTables (t : Tables) : P Unit (setTables t)

/-- Besides what is composed, beginnings, checks and commits have the property, and work in a context of the log or
under a lock inherits it. -/
class Bracketed (P : Property) : Prop extends Closed P where
  begin : P Unit begin
  checkPasses : P Bool checkPasses
  commit : P Unit commit
  withContext {α : Type} {x : Work α} (fields : List (String × Value)) : P α x → P α (withContext fields x)
  withLock {α : Type} {x : Work α} (loanId : String) (timeout : Value) :
    P α x → P α (Engine.withLock loanId timeout x)

/-- All steps have the property, drawing an id included, and all work inherits it. -/
class Full (P : Property) : Prop extends Ample P, Bracketed P where
  freshId : P String freshId

variable {P : Property} {α β : Type} {x y : Work α} {f : α → Work β}

/-! ## Composed work -/

section Composed

variable [Closed P]

instance (a : α) : Holds P (pure a : Work α) := ⟨Closed.pure a⟩

instance (e : Error) : Holds P (throw e : Work α) := ⟨Closed.throw e⟩

theorem Holds.bind (hx : Holds P x) (hf : ∀ a, Holds P (f a)) : Holds P (x >>= f) :=
  ⟨Closed.bind hx.holds fun a => (hf a).holds⟩

instance [Holds P x] [∀ a, Holds P (f a)] : Holds P (x >>= f) := .bind inferInstance fun _ => inferInstance

instance {g : α → β} [Holds P x] : Holds P (g <$> x) := by
  rw [map_eq_pure_bind]
  infer_instance

theorem Holds.recover {handler : Error → Work α} (hx : Holds P x) (hh : ∀ e, Holds P (handler e)) :
    Holds P (x.recover handler) :=
  ⟨Closed.recover hx.holds fun e => (hh e).holds⟩

instance {handler : Error → Work α} [Holds P x] [∀ e, Holds P (handler e)] : Holds P (x.recover handler) :=
  .recover inferInstance fun _ => inferInstance

instance [Holds P x] : Holds P x.attempt := ⟨Closed.attempt Holds.holds⟩

instance {r : Except Error α} : Holds P (Work.ofExcept r) := by
  cases r <;> unfold Work.ofExcept <;> infer_instance

instance {last : Work Unit} [Holds P x] [Holds P last] : Holds P (x.finally_ last) := by
  unfold Work.finally_
  infer_instance

instance {c : Prop} [Decidable c] [Holds P x] [Holds P y] : Holds P (if c then x else y) := by
  split <;> infer_instance

instance {γ : Type} {h : γ → Work β} [∀ c, Holds P (h c)] (cs : List γ) : Holds P (cs.mapM h) := by
  induction cs with
  | nil => rw [List.mapM_nil]; infer_instance
  | cons c cs ih => rw [List.mapM_cons]; infer_instance

/-! ## Log, clock and faults -/

theorem Holds.glance {g : Desk → α}
    (hg : ∀ d log faults checksLeft store tables,
      g { d with log, faults, checksLeft, store, session := { d.session with tables } } = g d) [∀ a, Holds P (f a)] :
    Holds P ((get : Work Desk) >>= fun d => f (g d)) :=
  have : Holds P (g <$> (get : Work Desk)) := ⟨Closed.glance g hg⟩
  inferInstanceAs (Holds P ((g <$> (get : Work Desk)) >>= f))

theorem Holds.peek {g : Session → α} (hg : ∀ s tables, g { s with tables } = g s) [∀ a, Holds P (f a)] :
    Holds P (session >>= fun s => f (g s)) :=
  .glance (g := fun d => g d.session) fun d _ _ _ _ tables => hg d.session tables

instance (r : Log.Record) : Holds P (note r) := ⟨Closed.note r⟩

instance (l : Log.Level) (s m : String) (fs : List (String × Value)) : Holds P (emit l s m fs) :=
  inferInstanceAs (Holds P (note _))

instance (p : Point) : Holds P (pass p) := ⟨Closed.pass p⟩

theorem Holds.call {p : Point} {missed : α} (hx : Holds P x) : Holds P (call p missed x) := by
  refine .bind inferInstance fun v => ?_
  cases v <;> infer_instance

instance (p : Point) (missed : α) [Holds P x] : Holds P (call p missed x) := .call inferInstance

theorem Holds.guarded {operation : String} (hx : Holds P x) : Holds P (guarded operation x) := by
  refine .recover hx fun e => ?_
  split <;> infer_instance

instance (operation : String) [Holds P x] : Holds P (guarded operation x) := .guarded inferInstance

instance : Holds P now := .glance (g := fun d => d.clock.now?.mapError Error.clock) fun _ _ _ _ _ _ => rfl

instance (t : Calendar.Timestamp) : Holds P (utc t) := by
  unfold utc
  split
  · infer_instance
  · split <;> infer_instance

instance : Holds P isRivalled := .glance (g := Desk.hasRival) (f := pure) fun _ _ _ _ _ _ => rfl

instance : Holds P isGuarded := .glance (g := Desk.isGuarded) (f := pure) fun _ _ _ _ _ _ => rfl

instance (loanId : String) (timeout : Value) (r : Locks.Error) :
    Holds P (Engine.lockFailed loanId timeout r : Work α) := by
  unfold Engine.lockFailed
  cases r <;> infer_instance

/-! ## Statements -/

instance (k : Known → Known) : Holds P (know k) := ⟨Closed.know k⟩

instance : Holds P breakSession := ⟨Closed.breakSession⟩

instance : Holds P statement :=
  .peek (g := Session.isBroken) (f := fun isBroken => do
    if isBroken then throw (.storage .abandoned)
    call .statement () (pure ())) fun _ _ => rfl

theorem Holds.savepoint (hx : Holds P x) (hy : Holds P y) : Holds P (savepoint x y) :=
  ⟨Closed.savepoint Holds.holds hx.holds hy.holds⟩

instance [Holds P x] [Holds P y] : Holds P (savepoint x y) := .savepoint inferInstance inferInstance

end Composed

/-! ## Readings of the rows -/

section Readings

variable [Stable P]

theorem Holds.read {g : Desk → α}
    (hg : ∀ d log faults checksLeft, g { d with log, faults, checksLeft } = g d) [∀ a, Holds P (f a)] :
    Holds P ((get : Work Desk) >>= fun d => f (g d)) :=
  have : Holds P (g <$> (get : Work Desk)) := ⟨Stable.read g hg⟩
  inferInstanceAs (Holds P ((g <$> (get : Work Desk)) >>= f))

instance : Holds P session := .read fun _ _ _ _ => rfl

instance (g : Tables → α) : Holds P (query g) := by
  unfold query
  infer_instance

end Readings

section Changes

variable [Ample P]

instance (t : Tables) : Holds P (setTables t) := ⟨Ample.setTables t⟩

instance (g : Tables → Except Error Tables) : Holds P (change g) := by
  unfold change
  infer_instance

instance (g : Tables → Option Tables) : Holds P (insert g) := by
  unfold insert
  infer_instance

end Changes

instance [Holds P begin] : Holds P rollback := inferInstanceAs (Holds P begin)

/-! ## Transactions -/

section Transactions

variable [Bracketed P]

instance : Holds P begin := ⟨Bracketed.begin⟩

instance : Holds P checkPasses := ⟨Bracketed.checkPasses⟩

instance : Holds P commit := ⟨Bracketed.commit⟩

instance (fields : List (String × Value)) [Holds P x] : Holds P (withContext fields x) :=
  ⟨Bracketed.withContext fields Holds.holds⟩

instance (r : Except Error α) : Holds P (finish r) := by
  unfold finish
  infer_instance

instance : Holds P start := by
  unfold start
  infer_instance

instance [Holds P x] : Holds P (scope x) := by
  unfold scope
  infer_instance

instance (loanId : String) (timeout : Value) [Holds P x] : Holds P (Engine.withLock loanId timeout x) :=
  ⟨Bracketed.withLock loanId timeout Holds.holds⟩

end Transactions

instance [Full P] : Holds P freshId := ⟨Full.freshId⟩

end LoanLedger.Ledger
