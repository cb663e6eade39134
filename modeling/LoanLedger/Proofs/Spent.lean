import LoanLedger.Proofs.Calm
import LoanLedger.Proofs.Heedless

/-!
# Spent faults

* `Fault.IsSpent f` : the fault does nothing any more; `Desk.Outlived d d'` : at the desk `d` there are no faults, and
  `d'` is the same desk with faults that are spent;
* `Unhindered` : at such desks the work goes the same way, up to what is spent. All work is unhindered;
* `d.losing p` : nothing disturbs the work, except that the next lookup at the point `p` finds nothing;
  `call_lost`, `call_losing`, `query_losing` : what becomes of a lookup there, and of one elsewhere.
-/

namespace LoanLedger.Ledger

variable {α β : Type} {x y : Work α} {f : α → Work β} {d d' d₁ : Desk} {a : α} {e : Error} {p q : Point}

def Fault.IsSpent (f : Fault) : Prop := ∀ n, f.passed < n → f.effect.verdict n = .done

/-- Spent faults let every call pass and stay spent. -/
theorem judge_spent {fs : List Fault} (h : ∀ f ∈ fs, f.IsSpent) :
    (judge p fs).2 = .done ∧ ∀ f ∈ (judge p fs).1, f.IsSpent := by
  induction fs with
  | nil => exact ⟨rfl, h⟩
  | cons f fs ih =>
    obtain ⟨hf, hfs⟩ := List.forall_mem_cons.mp h
    obtain ⟨hv, hs⟩ := ih hfs
    unfold judge
    by_cases hp : f.point = p
    · have later : Fault.IsSpent { f with passed := f.passed + 1 } := fun n hn => hf n (Nat.lt_of_succ_lt hn)
      rw [if_pos hp]
      dsimp only
      rw [hf _ (Nat.lt_succ_self _)]
      exact ⟨hv, List.forall_mem_cons.mpr ⟨later, hs⟩⟩
    · rw [if_neg hp]
      exact ⟨hv, List.forall_mem_cons.mpr ⟨hf, hs⟩⟩

def Desk.facing (d : Desk) (fs : List Fault) : Desk := { d with faults := fs }

/-- There are no faults, and the other desk is the same with faults that are spent. -/
structure Desk.Outlived (d d' : Desk) : Prop where
  faultless : d.faults = []
  others : ∃ fs, (∀ f ∈ fs, f.IsSpent) ∧ d' = d.facing fs

theorem Desk.Outlived.refl (h : d.faults = []) : d.Outlived d := by
  obtain ⟨store, session, clock, locks, setup, context, log, ids, guarded, faults, rival, checks⟩ := d
  obtain rfl : faults = [] := h
  exact ⟨rfl, [], List.forall_mem_nil _, rfl⟩

theorem Desk.Outlived.session (h : d.Outlived d') : d'.session = d.session := by
  obtain ⟨-, fs, -, rfl⟩ := h
  rfl

theorem Desk.Outlived.store (h : d.Outlived d') : d'.store = d.store := by
  obtain ⟨-, fs, -, rfl⟩ := h
  rfl

theorem Desk.Outlived.ids (h : d.Outlived d') : d'.ids = d.ids := by
  obtain ⟨-, fs, -, rfl⟩ := h
  rfl

/-- Work went the same way, up to faults that are spent. -/
inductive Abreast : EStateM.Result Error Desk α → EStateM.Result Error Desk α → Prop where
  | ok (a : α) {d d' : Desk} : d.Outlived d' → Abreast (.ok a d) (.ok a d')
  | error (e : Error) {d d' : Desk} : d.Outlived d' → Abreast (.error e d) (.error e d')

/-- Faults that are spent do not change how the work goes. -/
def Unhindered : Property := fun _ x => ∀ d d', Desk.Outlived d d' → Abreast (x d) (x d')

namespace Unhindered

theorem ok (hx : Unhindered α x) (ho : d.Outlived d') (h : x d = .ok a d₁) :
    ∃ d₂, x d' = .ok a d₂ ∧ d₁.Outlived d₂ := by
  have went := hx d d' ho
  rw [h] at went
  generalize x d' = r at went
  cases went with
  | ok _ ho => exact ⟨_, rfl, ho⟩

theorem error (hx : Unhindered α x) (ho : d.Outlived d') (h : x d = .error e d₁) :
    ∃ d₂, x d' = .error e d₂ ∧ d₁.Outlived d₂ := by
  have went := hx d d' ho
  rw [h] at went
  generalize x d' = r at went
  cases went with
  | error _ ho => exact ⟨_, rfl, ho⟩

/-! ## Composed work -/

theorem bind (hx : Unhindered α x) (hf : ∀ a, Unhindered β (f a)) : Unhindered β (x >>= f) := by
  intro d d' ho
  cases h : x d with
  | ok a d₁ =>
    obtain ⟨d₂, h', ho⟩ := hx.ok ho h
    rw [Work.bind_of_ok h, Work.bind_of_ok h']
    exact hf a d₁ d₂ ho
  | error e d₁ =>
    obtain ⟨d₂, h', ho⟩ := hx.error ho h
    rw [Work.bind_of_error h, Work.bind_of_error h']
    exact .error e ho

theorem recover {handler : Error → Work α} (hx : Unhindered α x) (hh : ∀ e, Unhindered α (handler e)) :
    Unhindered α (x.recover handler) := by
  intro d d' ho
  cases h : x d with
  | ok a d₁ =>
    obtain ⟨d₂, h', ho⟩ := hx.ok ho h
    rw [Work.recover_of_ok h, Work.recover_of_ok h']
    exact .ok a ho
  | error e d₁ =>
    obtain ⟨d₂, h', ho⟩ := hx.error ho h
    rw [Work.recover_of_error h, Work.recover_of_error h']
    exact hh e d₁ d₂ ho

theorem attempt (hx : Unhindered α x) : Unhindered (Except Error α) x.attempt := by
  intro d d' ho
  cases h : x d with
  | ok a d₁ =>
    obtain ⟨d₂, h', ho⟩ := hx.ok ho h
    rw [Work.attempt_of_ok h, Work.attempt_of_ok h']
    exact .ok _ ho
  | error e d₁ =>
    obtain ⟨d₂, h', ho⟩ := hx.error ho h
    rw [Work.attempt_of_error h, Work.attempt_of_error h']
    exact .ok _ ho

/-- Work that neither reads nor changes faults. -/
theorem of_modifyGet {g : Desk → α × Desk} (hg : ∀ d fs, g (d.facing fs) = ((g d).1, (g d).2.facing fs)) :
    Unhindered α (modifyGet g) := by
  rintro d d' ⟨hd, fs, hfs, rfl⟩
  have kept : (g d).2.faults = [] := (congrArg (fun r => r.2.faults) (hg d d.faults)).trans hd
  rw [Work.modifyGet_run, Work.modifyGet_run, hg]
  exact .ok _ ⟨kept, fs, hfs, rfl⟩

theorem of_modify {g : Desk → Desk} (hg : ∀ d fs, g (d.facing fs) = (g d).facing fs) : Unhindered Unit (modify g) :=
  of_modifyGet fun d fs => by rw [hg]

/-- What the desk shows, apart from its faults. -/
theorem of_get {g : Desk → α} (hg : ∀ d fs, g (d.facing fs) = g d) : Unhindered α (g <$> get) := by
  rintro d d' ⟨hd, fs, hfs, rfl⟩
  change Abreast (.ok (g d) d) (.ok (g (d.facing fs)) (d.facing fs))
  rw [hg]
  exact .ok _ ⟨hd, fs, hfs, rfl⟩

theorem note (r : Log.Record) : Unhindered Unit (note r) := by
  refine of_modify fun d fs => ?_
  change (if d.setup.passes r.level then _ else _) = _
  split <;> rfl

theorem pass (p : Point) : Unhindered Verdict (pass p) := by
  rintro d d' ⟨hd, fs, hfs, rfl⟩
  obtain ⟨hv, hs⟩ := judge_spent (p := p) hfs
  change Abreast (.ok (judge p d.faults).2 (d.passed p)) (.ok (judge p fs).2 (d.facing (judge p fs).1))
  rw [hv, hd, Desk.passed_faultless hd]
  exact .ok _ ⟨hd, _, hs, rfl⟩

theorem checkPasses : Unhindered Bool checkPasses := by
  refine of_modifyGet fun d fs => ?_
  obtain ⟨store, session, clock, locks, setup, context, log, ids, isGuarded, faults, hasRival, checksLeft⟩ := d
  rcases checksLeft with _ | _ | n <;> rfl

theorem savepoint (hs : Unhindered Unit statement) (hx : Unhindered α x) (hy : Unhindered α y) :
    Unhindered α (savepoint x y) := by
  have session : Unhindered Session session := of_get (g := Desk.session) fun _ _ => rfl
  refine .bind hs fun _ => .bind session fun before => .recover (.bind hx fun a => .bind hs fun _ => ?_) fun e => ?_
  · exact fun d d' ho => .ok a ho
  · split
    · exact .bind (.of_modify fun _ _ => rfl) fun _ => hy
    · exact fun d d' ho => .error _ ho

end Unhindered

instance : Ample Unhindered where
  pure a _ _ ho := .ok a ho
  throw e _ _ ho := .error e ho
  bind := .bind
  recover := .recover
  attempt := .attempt
  read _ hg := .of_get fun d fs => hg d d.log fs d.checksLeft
  note := .note
  pass := .pass
  know _ := .of_modify fun _ _ => rfl
  breakSession := .of_modify fun _ _ => rfl
  savepoint := .savepoint
  setTables _ := .of_modify fun _ _ => rfl

/-! ## Contexts, locks and commits -/

theorem Unhindered.withContext (fields : List (String × Value)) (hx : Unhindered α x) :
    Unhindered α (withContext fields x) := by
  have : Holds Unhindered x := ⟨hx⟩
  have merge : Holds Unhindered (modify fun d => { d with context := d.context.merge fields } : Work Unit) :=
    ⟨.of_modify fun _ _ => rfl⟩
  have restore (context : Log.Context) : Holds Unhindered (modify fun d => { d with context } : Work Unit) :=
    ⟨.of_modify fun _ _ => rfl⟩
  exact (Holds.read (P := Unhindered) (g := Desk.context) (f := fun before => do
    modify fun d => { d with context := d.context.merge fields }
    x.finally_ (modify fun d => { d with context := before })) fun _ _ _ _ => rfl).holds

theorem Unhindered.withLock (loanId : String) (timeout : Value) (hx : Unhindered α x) :
    Unhindered α (Engine.withLock loanId timeout x) := by
  have : Holds Unhindered x := ⟨hx⟩
  have leave : Holds Unhindered (modify fun d => { d with locks := d.locks.leave loanId } : Work Unit) :=
    ⟨.of_modify fun _ _ => rfl⟩
  refine .bind (.of_modifyGet fun _ _ => rfl) fun r => ?_
  cases r with
  | error e => exact (inferInstance : Holds Unhindered (Engine.lockFailed loanId timeout e)).holds
  | ok _ => exact (inferInstance : Holds Unhindered (x.finally_ _)).holds

instance : Full Unhindered where
  begin := .of_modify fun _ _ => rfl
  checkPasses := .checkPasses
  commit := by
    have : Holds Unhindered (modify fun d => { d with store := d.session.tables } : Work Unit) :=
      ⟨.of_modify fun _ _ => rfl⟩
    unfold commit
    exact Holds.holds
  withContext := .withContext
  withLock := .withLock
  freshId := .of_modifyGet fun _ _ => rfl

/-! ## A lost lookup -/

/-- Nothing disturbs the work, except that the next lookup at a point finds nothing. -/
def Desk.losing (d : Desk) (p : Point) : Desk := d.facing [⟨p, .miss 1, 0⟩]

/-- The lookup finds nothing, and then nothing disturbs the work any more. -/
theorem call_lost (hd : d.IsCalm) (p : Point) (missed : α) (x : Work α) :
    ∃ d', call p missed x (d.losing p) = .ok missed d' ∧ d.Outlived d' := by
  have lost : judge p (d.losing p).faults = ([⟨p, .miss 1, 1⟩], .missed) := by
    change judge p [⟨p, .miss 1, 0⟩] = _
    rw [judge, if_pos rfl]
    rfl
  have spent : Fault.IsSpent ⟨p, .miss 1, 1⟩ := fun n hn => if_neg (Nat.not_le.mpr hn)
  refine ⟨d.facing [⟨p, .miss 1, 1⟩], ?_, hd.faults, _, List.forall_mem_singleton.mpr spent, rfl⟩
  rw [call_run, Desk.passed, lost]
  rfl

theorem call_losing (hp : q ≠ p) (missed : α) (x : Work α) : call p missed x (d.losing q) = x (d.losing q) := by
  have spared : judge p (d.losing q).faults = ((d.losing q).faults, .done) :=
    judge_spared (List.forall_mem_singleton.mpr hp)
  rw [call_run, Desk.passed, spared]

theorem query_losing (hd : d.IsReady) (hp : q ≠ .statement) (g : Tables → α) :
    query g (d.losing q) = .ok (g d.session.tables) (d.losing q) := by
  have stated : statement (d.losing q) = .ok () (d.losing q) := by
    unfold statement
    rw [Work.bind_of_ok (Work.session_run _), show (d.losing q).session.isBroken = false from hd.sound,
      if_neg (by decide)]
    exact call_losing hp () (pure ())
  unfold query
  rw [Work.bind_of_ok stated]
  rfl

theorem checkCancelled_losing (hd : d.IsCalm) (hp : q ≠ .cancelCheck) (event : Event) (stage : String) :
    Engine.checkCancelled event stage (d.losing q) = .ok () (d.losing q) := by
  have passes : checkPasses (d.losing q) = .ok true (d.losing q) := by
    change EStateM.Result.ok _ _ = _
    rw [show (d.losing q).checksLeft = none from hd.checks]
  unfold Engine.checkCancelled
  rw [call_losing hp, Work.bind_of_ok passes]
  rfl

end LoanLedger.Ledger
