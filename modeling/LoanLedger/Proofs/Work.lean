import LoanLedger.Engine.Basic
import LoanLedger.Proofs.Locks
import LoanLedger.Proofs.Results

/-!
# How work goes

Work is opened step by step.

* `Work.bind_ok`, `Work.recover_ok`, `Work.attempt_ok`, … : from how work went to how its parts went;
* `Work.bind_of_ok`, `Work.recover_of_error`, … : from how the parts go to how the work goes;
* `Work.desk_of_ok`, … : the desk when work is through.
-/

namespace LoanLedger.Ledger

variable {α β : Type} {x y : Work α} {f : α → Work β} {a : α} {b : β} {e : Error} {d d₁ d' : Desk}

namespace Work

/-! ## Steps -/

@[simp] theorem pure_run (a : α) (d : Desk) : (pure a : Work α) d = .ok a d := rfl

@[simp] theorem throw_run (e : Error) (d : Desk) : (throw e : Work α) d = .error e d := rfl

@[simp] theorem get_run (d : Desk) : (get : Work Desk) d = .ok d d := rfl

@[simp] theorem modify_run (g : Desk → Desk) (d : Desk) : (modify g : Work Unit) d = .ok () (g d) := rfl

@[simp] theorem modifyGet_run (g : Desk → α × Desk) (d : Desk) :
    (modifyGet g : Work α) d = .ok (g d).1 (g d).2 := rfl

@[simp] theorem session_run (d : Desk) : session d = .ok d.session d := rfl

@[simp] theorem ofExcept_ok (a : α) : ofExcept (.ok a) = pure a := rfl

@[simp] theorem ofExcept_error (e : Error) : ofExcept (.error e : Except Error α) = throw e := rfl

theorem bind_of_ok (h : x d = .ok a d₁) : (x >>= f) d = f a d₁ := by
  change EStateM.bind x f d = _
  rw [EStateM.bind, h]

theorem bind_of_error (h : x d = .error e d₁) : (x >>= f) d = .error e d₁ := by
  change EStateM.bind x f d = _
  rw [EStateM.bind, h]

theorem bind_ok (h : (x >>= f) d = .ok b d') : ∃ a d₁, x d = .ok a d₁ ∧ f a d₁ = .ok b d' := by
  cases hx : x d with
  | ok a d₁ => exact ⟨a, d₁, rfl, by rwa [bind_of_ok hx] at h⟩
  | error e d₁ => rw [bind_of_error hx] at h; cases h

theorem bind_error (h : (x >>= f) d = .error e d') :
    x d = .error e d' ∨ ∃ a d₁, x d = .ok a d₁ ∧ f a d₁ = .error e d' := by
  cases hx : x d with
  | ok a d₁ => exact .inr ⟨a, d₁, rfl, by rwa [bind_of_ok hx] at h⟩
  | error e₁ d₁ =>
    rw [bind_of_error hx] at h
    cases h
    exact .inl rfl

theorem bind_congr (h : x d' = x d) : (x >>= f) d' = (x >>= f) d := by
  cases hx : x d with
  | ok a d₁ => rw [bind_of_ok hx, bind_of_ok (h.trans hx)]
  | error e d₁ => rw [bind_of_error hx, bind_of_error (h.trans hx)]

theorem map_ok {g : α → β} (h : (g <$> x) d = .ok b d') : ∃ a, x d = .ok a d' ∧ g a = b := by
  rw [map_eq_pure_bind] at h
  obtain ⟨a, d₁, hx, h⟩ := bind_ok h
  simp only [pure_run, EStateM.Result.ok.injEq] at h
  obtain ⟨rfl, rfl⟩ := h
  exact ⟨a, hx, rfl⟩

theorem map_of_ok {g : α → β} (h : x d = .ok a d₁) : (g <$> x) d = .ok (g a) d₁ := by
  rw [map_eq_pure_bind, bind_of_ok h, pure_run]

theorem map_of_error {g : α → β} (h : x d = .error e d₁) : (g <$> x) d = .error e d₁ := by
  rw [map_eq_pure_bind, bind_of_error h]

theorem map_error {g : α → β} (h : (g <$> x) d = .error e d') : x d = .error e d' := by
  rw [map_eq_pure_bind] at h
  rcases bind_error h with h | ⟨a, d₁, -, h⟩
  · exact h
  · cases h

theorem ofExcept_run_ok {r : Except Error α} (h : ofExcept r d = .ok a d') : r = .ok a ∧ d = d' := by
  cases r with
  | ok b =>
    simp only [ofExcept_ok, pure_run, EStateM.Result.ok.injEq] at h
    exact ⟨by rw [h.1], h.2⟩
  | error e => cases h

theorem answer_of_ok (h : x d = .ok a d₁) : x.answer d = .ok a := by rw [answer, h]

theorem answer_of_error (h : x d = .error e d₁) : x.answer d = .error e := by rw [answer, h]

theorem ok_of_answer (h : x.answer d = .ok a) : ∃ d', x d = .ok a d' := by
  unfold answer at h
  split at h
  · next d' hr =>
    cases h
    exact ⟨d', hr⟩
  · cases h

theorem error_of_answer (h : x.answer d = .error e) : ∃ d', x d = .error e d' := by
  unfold answer at h
  split at h
  · cases h
  · next d' hr =>
    cases h
    exact ⟨d', hr⟩

/-! ## Failures -/

variable {handler : Error → Work α}

theorem recover_of_ok (h : x d = .ok a d₁) : recover x handler d = .ok a d₁ := by
  rw [recover, h]

theorem recover_of_error (h : x d = .error e d₁) : recover x handler d = handler e d₁ := by
  rw [recover, h]

theorem recover_congr (h : x d' = x d) : recover x handler d' = recover x handler d := by
  rw [recover, recover, h]

theorem recover_ok (h : recover x handler d = .ok a d') :
    x d = .ok a d' ∨ ∃ e d₁, x d = .error e d₁ ∧ handler e d₁ = .ok a d' := by
  cases hx : x d with
  | ok b d₁ => exact .inl (by rwa [recover_of_ok hx] at h)
  | error e d₁ => exact .inr ⟨e, d₁, rfl, by rwa [recover_of_error hx] at h⟩

theorem recover_error (h : recover x handler d = .error e d') :
    ∃ e₁ d₁, x d = .error e₁ d₁ ∧ handler e₁ d₁ = .error e d' := by
  cases hx : x d with
  | ok b d₁ => rw [recover_of_ok hx] at h; cases h
  | error e₁ d₁ => exact ⟨e₁, d₁, rfl, by rwa [recover_of_error hx] at h⟩

theorem attempt_of_ok (h : x d = .ok a d₁) : attempt x d = .ok (.ok a) d₁ := by
  rw [attempt, h]

theorem attempt_of_error (h : x d = .error e d₁) : attempt x d = .ok (.error e) d₁ := by
  rw [attempt, h]

theorem attempt_ok {r : Except Error α} (h : attempt x d = .ok r d') :
    (∃ a, r = .ok a ∧ x d = .ok a d') ∨ ∃ e, r = .error e ∧ x d = .error e d' := by
  cases hx : x d with
  | ok a d₁ =>
    rw [attempt_of_ok hx] at h
    cases h
    exact .inl ⟨a, rfl, rfl⟩
  | error e d₁ =>
    rw [attempt_of_error hx] at h
    cases h
    exact .inr ⟨e, rfl, rfl⟩

theorem attempt_ne_error : attempt x d ≠ .error e d' := by
  cases hx : x d with
  | ok a d₁ => rw [attempt_of_ok hx]; simp
  | error e₁ d₁ => rw [attempt_of_error hx]; simp

section Finally

variable {g : Desk → Desk}

theorem finally_of_ok (h : x d = .ok a d₁) : finally_ x (modify g) d = .ok a (g d₁) := by
  rw [finally_, bind_of_ok (attempt_of_ok h)]
  rfl

theorem finally_of_error (h : x d = .error e d₁) : finally_ x (modify g) d = .error e (g d₁) := by
  rw [finally_, bind_of_ok (attempt_of_error h)]
  rfl

end Finally

/-! ## The desk afterwards -/

theorem desk_of_ok (h : x d = .ok a d₁) : x.desk d = d₁ := by
  rw [desk, h]

theorem desk_of_error (h : x d = .error e d₁) : x.desk d = d₁ := by
  rw [desk, h]

theorem desk_map (g : α → β) (x : Work α) (d : Desk) : (g <$> x).desk d = x.desk d := by
  cases h : x d with
  | ok a d₁ => rw [desk_of_ok h, desk_of_ok (map_of_ok h)]
  | error e d₁ => rw [desk_of_error h, desk_of_error (map_of_error h)]

theorem answer_map (g : α → β) (x : Work α) (d : Desk) : (g <$> x).answer d = (x.answer d).map g := by
  cases h : x d with
  | ok a d₁ => rw [answer, answer, h, map_of_ok h, Except.map]
  | error e d₁ => rw [answer, answer, h, map_of_error h, Except.map]

theorem desk_bind_of_ok (h : x d = .ok a d₁) : (x >>= f).desk d = (f a).desk d₁ := by
  rw [desk, bind_of_ok h, desk]

theorem desk_bind_of_error (h : x d = .error e d₁) : (x >>= f).desk d = d₁ :=
  desk_of_error (bind_of_error h)

theorem desk_recover_of_error (h : x d = .error e d₁) : (recover x handler).desk d = (handler e).desk d₁ := by
  rw [desk, recover_of_error h, desk]

end Work

/-! ## Contexts and locks -/

section Brackets

variable {fields : List (String × Value)} {loanId : String} {timeout : Value}

def Desk.bound (d : Desk) (fields : List (String × Value)) : Desk :=
  { d with context := d.context.merge fields }

theorem withContext_of_ok (h : x (d.bound fields) = .ok a d₁) :
    withContext fields x d = .ok a { d₁ with context := d.context } := by
  unfold withContext
  rw [Work.bind_of_ok (Work.get_run d), Work.bind_of_ok (Work.modify_run _ d)]
  exact Work.finally_of_ok h

theorem withContext_of_error (h : x (d.bound fields) = .error e d₁) :
    withContext fields x d = .error e { d₁ with context := d.context } := by
  unfold withContext
  rw [Work.bind_of_ok (Work.get_run d), Work.bind_of_ok (Work.modify_run _ d)]
  exact Work.finally_of_error h

theorem withContext_ok (h : withContext fields x d = .ok a d') :
    ∃ d₁, x (d.bound fields) = .ok a d₁ ∧ d' = { d₁ with context := d.context } := by
  cases hx : x (d.bound fields) with
  | ok b d₁ =>
    rw [withContext_of_ok hx] at h
    cases h
    exact ⟨d₁, rfl, rfl⟩
  | error e d₁ =>
    rw [withContext_of_error hx] at h
    cases h

theorem withContext_error (h : withContext fields x d = .error e d') :
    ∃ d₁, x (d.bound fields) = .error e d₁ ∧ d' = { d₁ with context := d.context } := by
  cases hx : x (d.bound fields) with
  | ok b d₁ =>
    rw [withContext_of_ok hx] at h
    cases h
  | error e₁ d₁ =>
    rw [withContext_of_error hx] at h
    cases h
    exact ⟨d₁, rfl, rfl⟩

theorem withContext_congr (hc : d'.context = d.context)
    (h : x (d'.bound fields) = x (d.bound fields)) :
    withContext fields x d' = withContext fields x d := by
  cases hx : x (d.bound fields) with
  | ok a d₁ => rw [withContext_of_ok hx, withContext_of_ok (h.trans hx), hc]
  | error e d₁ => rw [withContext_of_error hx, withContext_of_error (h.trans hx), hc]

def Desk.held (d : Desk) (loanId : String) (timeout : Value) : Desk :=
  { d with locks := (d.locks.hold loanId timeout).1 }

theorem withLock_of_ok (hl : (d.locks.hold loanId timeout).2 = .ok ()) (h : x (d.held loanId timeout) = .ok a d₁) :
    Engine.withLock loanId timeout x d = .ok a { d₁ with locks := d₁.locks.leave loanId } := by
  unfold Engine.withLock
  rw [Work.bind_of_ok (Work.modifyGet_run _ d), hl]
  exact Work.finally_of_ok h

theorem withLock_of_error (hl : (d.locks.hold loanId timeout).2 = .ok ())
    (h : x (d.held loanId timeout) = .error e d₁) :
    Engine.withLock loanId timeout x d = .error e { d₁ with locks := d₁.locks.leave loanId } := by
  unfold Engine.withLock
  rw [Work.bind_of_ok (Work.modifyGet_run _ d), hl]
  exact Work.finally_of_error h

theorem withLock_refused {r : Locks.Error} (hl : (d.locks.hold loanId timeout).2 = .error r) :
    Engine.withLock loanId timeout x d = Engine.lockFailed loanId timeout r d := by
  unfold Engine.withLock
  rw [Work.bind_of_ok (Work.modifyGet_run _ d), hl, Locks.hold_error hl]

theorem lockFailed_error (loanId : String) (timeout : Value) (r : Locks.Error) (d : Desk) :
    ∃ e d₁, (Engine.lockFailed loanId timeout r : Work α) d = .error e d₁ := by
  cases r with
  | timedOut => exact ⟨_, _, Work.bind_of_ok rfl⟩
  | stuck => exact ⟨_, _, rfl⟩
  | patience e => exact ⟨_, _, rfl⟩

theorem withLock_ok (h : Engine.withLock loanId timeout x d = .ok a d') :
    ∃ d₁, x (d.held loanId timeout) = .ok a d₁ := by
  cases hl : (d.locks.hold loanId timeout).2 with
  | error r =>
    obtain ⟨e, d₁, hr⟩ := lockFailed_error (α := α) loanId timeout r d
    rw [withLock_refused hl, hr] at h
    cases h
  | ok u =>
    cases hx : x (d.held loanId timeout) with
    | ok b d₁ =>
      rw [withLock_of_ok hl hx] at h
      cases h
      exact ⟨d₁, rfl⟩
    | error e d₁ =>
      rw [withLock_of_error hl hx] at h
      cases h

theorem withLock_error (h : Engine.withLock loanId timeout x d = .error e d') :
    (∃ r, (Engine.lockFailed loanId timeout r : Work α) d = .error e d') ∨
      ∃ d₁, x (d.held loanId timeout) = .error e d₁ := by
  cases hl : (d.locks.hold loanId timeout).2 with
  | error r => exact .inl ⟨r, by rwa [withLock_refused hl] at h⟩
  | ok u =>
    cases hx : x (d.held loanId timeout) with
    | ok b d₁ =>
      rw [withLock_of_ok hl hx] at h
      cases h
    | error e₁ d₁ =>
      rw [withLock_of_error hl hx] at h
      cases h
      exact .inr ⟨d₁, rfl⟩

end Brackets

end LoanLedger.Ledger
