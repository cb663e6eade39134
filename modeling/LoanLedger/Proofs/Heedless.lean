import LoanLedger.Proofs.Frame
import LoanLedger.Proofs.Property.Ledger

/-!
# Work that does not look at the token

* `d.allowing c` : the desk when `c` more checks pass, or all of them;
* `d.IsUncancelled` : there is no token, and checks are not disturbed;
* `onDesk g r` : how work went, at another desk;
* `Heedless` : however many checks are left, the work goes the same way and leaves them. Whatever is done on the
  ledger is heedless; only the engine checks.
-/

namespace LoanLedger.Ledger

variable {α β : Type} {x y : Work α} {f : α → Work β} {d d₁ : Desk} {c : Option Nat} {a : α} {e : Error}

def Desk.allowing (d : Desk) (c : Option Nat) : Desk := { d with checksLeft := c }

/-- There is no token, and checks are not disturbed. -/
structure Desk.IsUncancelled (d : Desk) : Prop where
  checks : d.checksLeft = none
  spared : ∀ x ∈ d.plan, x.1 ≠ .cancelCheck

theorem Desk.Beside.isUncancelled (h : d.Beside d₁) (hd : d.IsUncancelled) : d₁.IsUncancelled where
  checks := h.checks hd.checks
  spared := h.plan ▸ hd.spared

/-- A point at which nothing is to happen is passed. -/
theorem judge_spared {p : Point} {fs : List Fault} (h : ∀ f ∈ fs, f.point ≠ p) : judge p fs = (fs, .done) := by
  induction fs with
  | nil => rfl
  | cons f fs ih =>
    obtain ⟨hf, hfs⟩ := List.forall_mem_cons.mp h
    rw [judge, if_neg hf, ih hfs]

def onDesk (g : Desk → Desk) : EStateM.Result Error Desk α → EStateM.Result Error Desk α
  | .ok a d => .ok a (g d)
  | .error e d => .error e (g d)

/-- However many checks are left, the work goes the same way and leaves them. -/
def Heedless : Property := fun _ x => ∀ d c, x (d.allowing c) = onDesk (·.allowing c) (x d)

namespace Heedless

theorem ok (hx : Heedless α x) (h : x d = .ok a d₁) (c : Option Nat) :
    x (d.allowing c) = .ok a (d₁.allowing c) := by
  rw [hx d c, h]
  rfl

theorem error (hx : Heedless α x) (h : x d = .error e d₁) (c : Option Nat) :
    x (d.allowing c) = .error e (d₁.allowing c) := by
  rw [hx d c, h]
  rfl

/-! ## Composed work -/

theorem bind (hx : Heedless α x) (hf : ∀ a, Heedless β (f a)) : Heedless β (x >>= f) := by
  intro d c
  cases h : x d with
  | ok a d₁ => rw [Work.bind_of_ok h, Work.bind_of_ok (hx.ok h c), hf a d₁ c]
  | error e d₁ =>
    rw [Work.bind_of_error h, Work.bind_of_error (hx.error h c)]
    rfl

theorem recover {handler : Error → Work α} (hx : Heedless α x) (hh : ∀ e, Heedless α (handler e)) :
    Heedless α (x.recover handler) := by
  intro d c
  cases h : x d with
  | ok a d₁ =>
    rw [Work.recover_of_ok h, Work.recover_of_ok (hx.ok h c)]
    rfl
  | error e d₁ => rw [Work.recover_of_error h, Work.recover_of_error (hx.error h c), hh e d₁ c]

theorem attempt (hx : Heedless α x) : Heedless (Except Error α) x.attempt := by
  intro d c
  cases h : x d with
  | ok a d₁ =>
    rw [Work.attempt_of_ok h, Work.attempt_of_ok (hx.ok h c)]
    rfl
  | error e d₁ =>
    rw [Work.attempt_of_error h, Work.attempt_of_error (hx.error h c)]
    rfl

theorem note (r : Log.Record) : Heedless Unit (note r) := by
  intro d c
  change EStateM.Result.ok () (if d.setup.passes r.level then _ else _) =
    onDesk _ (.ok () (if d.setup.passes r.level then _ else _))
  split <;> rfl

theorem savepoint (hs : Heedless Unit statement) (hx : Heedless α x) (hy : Heedless α y) :
    Heedless α (savepoint x y) := by
  refine .bind hs fun _ => .bind (fun _ _ => rfl) fun before =>
    .recover (.bind hx fun a => .bind hs fun _ => ?_) fun e => ?_
  · exact fun _ _ => rfl
  · split
    · exact .bind (fun _ _ => rfl) fun _ => hy
    · exact fun _ _ => rfl

end Heedless

/-! ## Work on the ledger -/

instance : Ample Heedless where
  pure _ _ _ := rfl
  throw _ _ _ := rfl
  bind := .bind
  recover := .recover
  attempt := .attempt
  read _ hf d c := congrArg (EStateM.Result.ok · (d.allowing c)) (hf d d.log d.faults c)
  note := .note
  pass _ _ _ := rfl
  know _ _ _ := rfl
  breakSession _ _ := rfl
  savepoint := .savepoint
  setTables _ _ _ := rfl

instance : Holds Heedless freshId := ⟨fun _ _ => rfl⟩

instance : Holds Heedless begin := ⟨fun _ _ => rfl⟩

instance : Holds Heedless commit := by
  have : Holds Heedless (modify fun d => { d with store := d.session.tables } : Work Unit) := ⟨fun _ _ => rfl⟩
  unfold commit
  infer_instance

end LoanLedger.Ledger
