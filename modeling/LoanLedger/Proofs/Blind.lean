import LoanLedger.Proofs.Property.Basic
import LoanLedger.Proofs.Work

/-!
# Work does not read the log

* `Desk.Alike d d'` : all but the log is the same; `Agree r r'` : work went the same way, up to the log;
* `Blind` : at desks that are alike the work goes the same way. All work is blind.
-/

namespace LoanLedger.Ledger

def Desk.Alike (d d' : Desk) : Prop := ∃ log, d' = { d with log }

variable {α β : Type}

/-- Work went the same way, up to the log. -/
inductive Agree : EStateM.Result Error Desk α → EStateM.Result Error Desk α → Prop where
  | ok (a : α) {d d' : Desk} : d.Alike d' → Agree (.ok a d) (.ok a d')
  | error (e : Error) {d d' : Desk} : d.Alike d' → Agree (.error e d) (.error e d')

def Blind : Property := fun _ x => ∀ d d', Desk.Alike d d' → Agree (x d) (x d')

variable {x y : Work α} {f : α → Work β}

/-! ## Composed work -/

theorem Blind.bind (hx : Blind α x) (hf : ∀ a, Blind β (f a)) : Blind β (x >>= f) := by
  intro d d' h
  change Agree (EStateM.bind x f d) (EStateM.bind x f d')
  have hd := hx d d' h
  unfold EStateM.bind
  generalize x d = r, x d' = r' at hd
  cases hd with
  | ok a h₁ => exact hf a _ _ h₁
  | error e h₁ => exact .error e h₁

theorem Blind.recover {handler : Error → Work α} (hx : Blind α x) (hh : ∀ e, Blind α (handler e)) :
    Blind α (x.recover handler) := by
  intro d d' h
  have hd := hx d d' h
  unfold Work.recover
  generalize x d = r, x d' = r' at hd
  cases hd with
  | ok a h₁ => exact .ok a h₁
  | error e h₁ => exact hh e _ _ h₁

theorem Blind.attempt (hx : Blind α x) : Blind (Except Error α) x.attempt := by
  intro d d' h
  have hd := hx d d' h
  unfold Work.attempt
  generalize x d = r, x d' = r' at hd
  cases hd with
  | ok a h₁ => exact Agree.ok (Except.ok a) h₁
  | error e h₁ => exact Agree.ok (Except.error e) h₁

theorem Blind.of_modify {g : Desk → Desk} (hg : ∀ d log, g { d with log } = { g d with log }) :
    Blind Unit (modify g) := by
  rintro d d' ⟨log, rfl⟩
  exact .ok () ⟨log, hg d log⟩

theorem Blind.note (r : Log.Record) : Blind Unit (note r) := by
  rintro d d' ⟨log, rfl⟩
  refine .ok () ?_
  by_cases h : d.setup.passes r.level
  · exact ⟨log ++ [⟨r, d.context⟩], by simp [h]⟩
  · exact ⟨log, by simp [h]⟩

theorem Blind.checkPasses : Blind Bool checkPasses := by
  rintro ⟨store, session, clock, locks, setup, context, log, ids, isGuarded, faults, hasRival, checksLeft⟩
    d' ⟨log', rfl⟩
  rcases checksLeft with _ | _ | n
  · exact .ok true ⟨log', rfl⟩
  · exact .ok false ⟨log', rfl⟩
  · exact .ok true ⟨log', rfl⟩

theorem Blind.savepoint (hs : Blind Unit statement) (hx : Blind α x) (hy : Blind α y) :
    Blind α (savepoint x y) := by
  refine .bind hs fun _ => ?_
  rintro d d' ⟨log, rfl⟩
  change Agree (Work.recover _ _ d) (Work.recover _ _ { d with log })
  refine Blind.recover (.bind hx fun a => .bind hs fun _ => ?_) (fun e => ?_) _ _ ⟨log, rfl⟩
  · exact fun d d' h => .ok a h
  · split
    · exact .bind (.of_modify fun _ _ => rfl) fun _ => hy
    · exact fun d d' h => .error _ h

instance : Ample Blind where
  pure a _ _ h := .ok a h
  throw e _ _ h := .error e h
  bind := .bind
  recover := .recover
  attempt := .attempt
  read f hf := by
    rintro d d' ⟨log, rfl⟩
    change Agree (.ok (f d) d) (.ok (f { d with log }) { d with log })
    rw [hf d log d.faults d.checksLeft]
    exact .ok _ ⟨log, rfl⟩
  note := .note
  pass p := by
    rintro d d' ⟨log, rfl⟩
    exact .ok _ ⟨log, rfl⟩
  know _ := .of_modify fun _ _ => rfl
  breakSession := .of_modify fun _ _ => rfl
  savepoint := .savepoint
  setTables _ := .of_modify fun _ _ => rfl

/-! ## Contexts, locks and commits -/

theorem Blind.withContext (fields : List (String × Value)) (hx : Blind α x) :
    Blind α (withContext fields x) := by
  have : Holds Blind x := ⟨hx⟩
  have merge : Holds Blind (modify fun d => { d with context := d.context.merge fields } : Work Unit) :=
    ⟨.of_modify fun _ _ => rfl⟩
  have restore (context : Log.Context) : Holds Blind (modify fun d => { d with context } : Work Unit) :=
    ⟨.of_modify fun _ _ => rfl⟩
  exact (Holds.read (P := Blind) (g := Desk.context) (f := fun before => do
    modify fun d => { d with context := d.context.merge fields }
    x.finally_ (modify fun d => { d with context := before })) fun _ _ _ _ => rfl).holds

theorem Blind.withLock (loanId : String) (timeout : Value) (hx : Blind α x) :
    Blind α (Engine.withLock loanId timeout x) := by
  have : Holds Blind x := ⟨hx⟩
  have leave : Holds Blind (modify fun d => { d with locks := d.locks.leave loanId } : Work Unit) :=
    ⟨.of_modify fun _ _ => rfl⟩
  refine .bind ?_ fun r => ?_
  · rintro d d' ⟨log, rfl⟩
    exact .ok _ ⟨log, rfl⟩
  · cases r with
    | error e => exact (inferInstance : Holds Blind (Engine.lockFailed loanId timeout e)).holds
    | ok _ => exact (inferInstance : Holds Blind (x.finally_ _)).holds

instance : Full Blind where
  begin := .of_modify fun _ _ => rfl
  checkPasses := .checkPasses
  commit := by
    have : Holds Blind (modify fun d => { d with store := d.session.tables } : Work Unit) :=
      ⟨.of_modify fun _ _ => rfl⟩
    unfold commit
    exact Holds.holds
  withContext := Blind.withContext
  withLock := Blind.withLock
  freshId := by
    rintro d d' ⟨log, rfl⟩
    exact .ok _ ⟨log, rfl⟩

end LoanLedger.Ledger
