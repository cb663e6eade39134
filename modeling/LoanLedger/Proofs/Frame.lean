import LoanLedger.Ledger.Desk
import LoanLedger.Proofs.Property.Basic
import LoanLedger.Proofs.Work

/-!
# What work leaves alone

* `Desk.plan d` : what is to happen at which points, without how often they were passed; work does not
  change it;
* `Desk.IsHonest d` : only those calls may find nothing that look something up, so that no other call
  goes by as if it had been done;
* `Desk.IsCalm d` : nothing disturbs the work;
* `Kept R` : whatever comes of the work, the desk is related by `R` to the one before; `Keeps R x` says
  so of `x`;
* `Frame R`, `Wide R` : relations that every step keeps which leaves the rows alone, and those that say
  nothing about the session: all work short of a commit keeps them, if drawing an id does (`Issuing R`);
* `Desk.Beside d d'` : all but rows, log and session is the same: locks, clock, setup, context; faults
  only count on, and ids are only used up. All work keeps it;
* `Desk.Near d d'` : besides, the committed rows are the same. Work short of a commit keeps it.
-/

namespace LoanLedger.Ledger

/-! ## Faults -/

def Fault.plan (f : Fault) : Point × Effect := (f.point, f.effect)

theorem judge_plan (p : Point) (fs : List Fault) : (judge p fs).1.map Fault.plan = fs.map Fault.plan := by
  induction fs with
  | nil => rfl
  | cons f fs ih =>
    unfold judge
    split
    · dsimp only
      split <;> simp only [List.map_cons, Fault.plan, ih]
    · simp only [List.map_cons, ih]

def Desk.plan (d : Desk) : List (Point × Effect) := d.faults.map Fault.plan

/-! ## Honest faults -/

def Point.isLookup : Point → Bool
  | getLoan | findTransition | findDisbursement | lockedCounter => true
  | _ => false

/-- Only those calls may find nothing that look something up. -/
def Desk.IsHonest (d : Desk) : Prop :=
  ∀ p n, (p, Effect.miss n) ∈ d.plan → p.isLookup

theorem Effect.verdict_missed {n : Nat} {x : Effect} (h : x.verdict n = .missed) : ∃ m, x = .miss m := by
  cases x with
  | miss m => exact ⟨m, rfl⟩
  | fail c e =>
    cases c with
    | none => cases h
    | some c =>
      rw [Effect.verdict] at h
      split at h <;> cases h

theorem judge_missed {p : Point} {fs : List Fault} (h : (judge p fs).2 = .missed) :
    ∃ n, (p, Effect.miss n) ∈ fs.map Fault.plan := by
  induction fs with
  | nil => cases h
  | cons f fs ih =>
    have tail (h : (judge p fs).2 = .missed) : ∃ n, (p, Effect.miss n) ∈ (f :: fs).map Fault.plan :=
      (ih h).imp fun n hn => List.mem_cons_of_mem _ hn
    unfold judge at h
    split at h
    · next hp =>
      dsimp only at h
      split at h
      · exact tail h
      · obtain ⟨n, hn⟩ := Effect.verdict_missed h
        exact ⟨n, by simp [Fault.plan, hp, hn]⟩
    · exact tail h

theorem Desk.IsHonest.not_missed {d : Desk} {p : Point} (h : d.IsHonest) (hp : p.isLookup = false) :
    (judge p d.faults).2 ≠ .missed := by
  intro hm
  obtain ⟨n, hn⟩ := judge_missed hm
  rw [h p n hn] at hp
  cases hp

/-! ## No faults -/

/-- Nothing disturbs the work. -/
structure Desk.IsCalm (d : Desk) : Prop where
  faults : d.faults = []
  rival : d.hasRival = false
  checks : d.checksLeft = none

theorem Desk.isHonest_of_faultless {d : Desk} (h : d.faults = []) : d.IsHonest := by
  intro p n hn
  rw [Desk.plan, h] at hn
  cases hn

theorem Desk.IsCalm.isHonest {d : Desk} (h : d.IsCalm) : d.IsHonest := Desk.isHonest_of_faultless h.faults

/-! ## Relations that work keeps -/

/-- Whatever comes of the work, the desk is related to the one before. -/
def Kept (R : Desk → Desk → Prop) : Property :=
  fun _ x => ∀ d, R d (x.desk d)

/-- The work leaves the desk related to the one before. -/
abbrev Keeps (R : Desk → Desk → Prop) {α : Type} (x : Work α) : Prop :=
  Holds (Kept R) x

/-- A relation between the desk before and after that every step keeps which leaves the rows alone. -/
class Frame (R : Desk → Desk → Prop) : Prop where
  refl : ∀ d, R d d
  trans : ∀ {d₁ d₂ d₃}, R d₁ d₂ → R d₂ d₃ → R d₁ d₃
  log : ∀ d log, R d { d with log }
  pass : ∀ d p, R d { d with faults := (judge p d.faults).1 }
  know : ∀ d known, R d { d with session := { d.session with known } }
  broken : ∀ d, R d { d with session := { d.session with isBroken := true } }
  check : ∀ d n, d.checksLeft = some (n + 1) → R d { d with checksLeft := some n }
  back : ∀ {d d₁}, R d d₁ → R d { d₁ with session := d.session }

/-- A relation that drawing an id keeps. -/
class Issuing (R : Desk → Desk → Prop) : Prop where
  freshId : ∀ d, R d { d with ids := d.ids.next.2 }

/-- A frame that says nothing about the session. -/
class Wide (R : Desk → Desk → Prop) : Prop extends Frame R where
  session : ∀ d session, R d { d with session }

variable {α β : Type} {x y : Work α} {f : α → Work β} {R : Desk → Desk → Prop} {a : α} {e : Error}
  {d d' : Desk}

theorem Keeps.ok [Keeps R x] (h : x d = .ok a d') : R d d' := by
  rw [← Work.desk_of_ok h]
  exact Holds.holds (P := Kept R) (x := x) d

theorem Keeps.error [Keeps R x] (h : x d = .error e d') : R d d' := by
  rw [← Work.desk_of_error h]
  exact Holds.holds (P := Kept R) (x := x) d

/-! ## Composed work -/

theorem Kept.intro (hok : ∀ d a d', x d = .ok a d' → R d d')
    (herror : ∀ d e d', x d = .error e d' → R d d') : Kept R α x := by
  intro d
  cases h : x d with
  | ok a d' => exact Work.desk_of_ok h ▸ hok d a d' h
  | error e d' => exact Work.desk_of_error h ▸ herror d e d' h

theorem Kept.ok (hx : Kept R α x) (h : x d = .ok a d') : R d d' :=
  Work.desk_of_ok h ▸ hx d

theorem Kept.error (hx : Kept R α x) (h : x d = .error e d') : R d d' :=
  Work.desk_of_error h ▸ hx d

theorem Kept.attempt (hx : Kept R α x) : Kept R (Except Error α) x.attempt := by
  refine .intro (fun d r d' h => ?_) (fun d e d' h => absurd h Work.attempt_ne_error)
  rcases Work.attempt_ok h with ⟨a, -, h⟩ | ⟨e, -, h⟩
  · exact hx.ok h
  · exact hx.error h

section Frame

variable [Frame R]

theorem Kept.bind (hx : Kept R α x) (hf : ∀ a, Kept R β (f a)) : Kept R β (x >>= f) := by
  refine .intro (fun d b d' h => ?_) (fun d e d' h => ?_)
  · obtain ⟨a, d₁, h₁, h₂⟩ := Work.bind_ok h
    exact Frame.trans (hx.ok h₁) ((hf a).ok h₂)
  · rcases Work.bind_error h with h | ⟨a, d₁, h₁, h₂⟩
    · exact hx.error h
    · exact Frame.trans (hx.ok h₁) ((hf a).error h₂)

theorem Kept.recover {handler : Error → Work α} (hx : Kept R α x) (hh : ∀ e, Kept R α (handler e)) :
    Kept R α (x.recover handler) := by
  refine .intro (fun d a d' h => ?_) (fun d e d' h => ?_)
  · rcases Work.recover_ok h with h | ⟨e, d₁, h₁, h₂⟩
    · exact hx.ok h
    · exact Frame.trans (hx.error h₁) ((hh e).ok h₂)
  · obtain ⟨e₁, d₁, h₁, h₂⟩ := Work.recover_error h
    exact Frame.trans (hx.error h₁) ((hh e₁).error h₂)

theorem Kept.note (r : Log.Record) : Kept R Unit (note r) := by
  intro d
  change R d (if d.setup.passes r.level then _ else _)
  split
  · exact Frame.log d _
  · exact Frame.refl d

theorem Kept.checkPasses : Kept R Bool checkPasses := by
  intro d
  unfold Ledger.checkPasses
  rw [Work.desk_of_ok (Work.modifyGet_run _ d)]
  split
  · exact Frame.refl d
  · exact Frame.refl d
  · exact Frame.check d _ (by assumption)

theorem Kept.savepoint (hs : Kept R Unit statement) (hx : Kept R α x) (hy : Kept R α y) :
    Kept R α (savepoint x y) := by
  intro d
  unfold Ledger.savepoint
  cases h : statement d with
  | error e d₁ =>
    rw [Work.desk_bind_of_error h]
    exact hs.error h
  | ok _ d₁ =>
    rw [Work.desk_bind_of_ok h, Work.desk_bind_of_ok (Work.session_run d₁)]
    refine Frame.trans (hs.ok h) ?_
    have hxs : Kept R α (do let a ← x; statement; pure a) :=
      .bind hx fun a => .bind hs fun _ => fun d => Frame.refl d
    cases h : (do let a ← x; statement; pure a : Work α) d₁ with
    | ok a d₂ =>
      rw [Work.desk_of_ok (Work.recover_of_ok h)]
      exact hxs.ok h
    | error e d₂ =>
      rw [Work.desk_recover_of_error h]
      have hR : R d₁ d₂ := hxs.error h
      split
      · exact Frame.trans (Frame.back hR) (hy { d₂ with session := d₁.session })
      · exact hR

instance : Stable (Kept R) where
  pure _ d := Frame.refl d
  throw _ d := Frame.refl d
  bind := .bind
  recover := .recover
  attempt := .attempt
  read _ _ d := Frame.refl d
  note := .note
  pass p d := Frame.pass d p
  know _ d := Frame.know d _
  breakSession d := Frame.broken d
  savepoint := .savepoint

instance : Keeps R checkPasses := ⟨.checkPasses⟩

end Frame

instance [Issuing R] : Keeps R freshId := ⟨fun d => Issuing.freshId d⟩

section Wide

variable [Wide R]

instance : Ample (Kept R) where
  setTables _ d := Wide.session d _

instance : Keeps R begin := ⟨fun d => Wide.session d _⟩

end Wide

/-! ## The two relations -/

/-- All but rows, log and session is the same. -/
structure Desk.Beside (d d' : Desk) : Prop where
  locks : d'.locks = d.locks
  clock : d'.clock = d.clock
  setup : d'.setup = d.setup
  context : d'.context = d.context
  guarded : d'.isGuarded = d.isGuarded
  rival : d'.hasRival = d.hasRival
  names : d'.ids.names = d.ids.names
  used : d.ids.used ≤ d'.ids.used
  plan : d'.plan = d.plan
  checks : d.checksLeft = none → d'.checksLeft = none

structure Desk.Near (d d' : Desk) : Prop extends Desk.Beside d d' where
  store : d'.store = d.store

theorem Desk.Beside.refl (d : Desk) : d.Beside d :=
  ⟨rfl, rfl, rfl, rfl, rfl, rfl, rfl, Nat.le_refl _, rfl, id⟩

theorem Desk.Beside.trans {d₁ d₂ d₃ : Desk} (h : d₁.Beside d₂) (h' : d₂.Beside d₃) :
    d₁.Beside d₃ where
  locks := h'.locks.trans h.locks
  clock := h'.clock.trans h.clock
  setup := h'.setup.trans h.setup
  context := h'.context.trans h.context
  guarded := h'.guarded.trans h.guarded
  rival := h'.rival.trans h.rival
  names := h'.names.trans h.names
  used := Nat.le_trans h.used h'.used
  plan := h'.plan.trans h.plan
  checks hc := h'.checks (h.checks hc)

instance : Wide Desk.Beside where
  refl := .refl
  trans := .trans
  log _ _ := ⟨rfl, rfl, rfl, rfl, rfl, rfl, rfl, Nat.le_refl _, rfl, id⟩
  pass d p := ⟨rfl, rfl, rfl, rfl, rfl, rfl, rfl, Nat.le_refl _, judge_plan p d.faults, id⟩
  know _ _ := ⟨rfl, rfl, rfl, rfl, rfl, rfl, rfl, Nat.le_refl _, rfl, id⟩
  broken _ := ⟨rfl, rfl, rfl, rfl, rfl, rfl, rfl, Nat.le_refl _, rfl, id⟩
  check _ _ h := ⟨rfl, rfl, rfl, rfl, rfl, rfl, rfl, Nat.le_refl _, rfl, fun hn => by rw [hn] at h; cases h⟩
  back h := ⟨h.locks, h.clock, h.setup, h.context, h.guarded, h.rival, h.names, h.used, h.plan, h.checks⟩
  session _ _ := ⟨rfl, rfl, rfl, rfl, rfl, rfl, rfl, Nat.le_refl _, rfl, id⟩

instance : Issuing Desk.Beside where
  freshId _ := ⟨rfl, rfl, rfl, rfl, rfl, rfl, rfl, Nat.le_succ _, rfl, id⟩

instance : Wide Desk.Near where
  refl d := ⟨.refl d, rfl⟩
  trans h h' := ⟨h.toBeside.trans h'.toBeside, h'.store.trans h.store⟩
  log d log := ⟨Frame.log d log, rfl⟩
  pass d p := ⟨Frame.pass d p, rfl⟩
  know d k := ⟨Frame.know d k, rfl⟩
  broken d := ⟨Frame.broken d, rfl⟩
  check d n h := ⟨Frame.check d n h, rfl⟩
  back h := ⟨Frame.back h.toBeside, h.store⟩
  session d s := ⟨Wide.session d s, rfl⟩

instance : Issuing Desk.Near where
  freshId d := ⟨Issuing.freshId d, rfl⟩

theorem Desk.Beside.isHonest (h : d.Beside d') (hd : d.IsHonest) : d'.IsHonest := by
  intro p n hn
  rw [h.plan] at hn
  exact hd p n hn

/-! ## Contexts, locks and commits -/

section Brackets

variable {fields : List (String × Value)} {loanId : String} {timeout : Value}

theorem Kept.withContext (hR : ∀ {d d₁ : Desk}, R (d.bound fields) d₁ → R d { d₁ with context := d.context })
    (hx : Kept R α x) : Kept R α (withContext fields x) := by
  intro d
  have h := hx (d.bound fields)
  cases hr : x (d.bound fields) with
  | ok a d₁ =>
    rw [Work.desk_of_ok hr] at h
    rw [Work.desk_of_ok (withContext_of_ok hr)]
    exact hR h
  | error e d₁ =>
    rw [Work.desk_of_error hr] at h
    rw [Work.desk_of_error (withContext_of_error hr)]
    exact hR h

theorem Kept.withLock [Frame R] (hR : ∀ {d d₁ : Desk}, (d.locks.hold loanId timeout).2 = .ok () →
      R (d.held loanId timeout) d₁ → R d { d₁ with locks := d₁.locks.leave loanId })
    (hx : Kept R α x) : Kept R α (Engine.withLock loanId timeout x) := by
  intro d
  cases hl : (d.locks.hold loanId timeout).2 with
  | error r =>
    rw [Work.desk, withLock_refused hl]
    exact (Holds.holds : Kept R α (Engine.lockFailed loanId timeout r)) d
  | ok _ =>
    have h := hx (d.held loanId timeout)
    cases hr : x (d.held loanId timeout) with
    | ok a d₁ =>
      rw [Work.desk_of_ok hr] at h
      rw [Work.desk_of_ok (withLock_of_ok hl hr)]
      exact hR hl h
    | error e d₁ =>
      rw [Work.desk_of_error hr] at h
      rw [Work.desk_of_error (withLock_of_error hl hr)]
      exact hR hl h

end Brackets

theorem Kept.commit [Frame R] (hR : ∀ d : Desk, R d { d with store := d.session.tables }) : Kept R Unit commit := by
  have store : Keeps R (modify fun d => { d with store := d.session.tables } : Work Unit) := ⟨hR⟩
  unfold Ledger.commit
  exact Holds.holds

instance : Full (Kept Desk.Beside) where
  begin d := Wide.session d _
  checkPasses := .checkPasses
  commit := .commit fun d => { Desk.Beside.refl d with }
  withContext _ := .withContext fun h => { h with context := rfl }
  -- the holder finds the table as it left it, so that leaving restores the one before
  withLock loanId _ := .withLock fun hl h =>
    { h with locks := (congrArg (·.leave loanId) h.locks).trans (Locks.leave_hold hl) }
  freshId d := Issuing.freshId d

end LoanLedger.Ledger
