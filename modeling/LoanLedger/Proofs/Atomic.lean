import LoanLedger.Proofs.Property.Ledger
import LoanLedger.Proofs.Calm

/-!
# All or nothing

* `Settled work isNothing d r` : `r` is what came of a call at the desk `d`: when the call failed, or its
  answer means that nothing was to be done, the committed rows are those from before; otherwise they are
  the rows that the whole of `work` left in a session of its own;
* `serve_settled` : every call of the engine is settled, whatever disturbs it;
* `scope_settled` : so is every block in a transaction of its own.
-/

namespace LoanLedger.Ledger

variable {α β : Type} {x : Work α} {work : Work (Option α)} {isNothing : α → Bool} {a : α} {e : Error}
  {d d' d₁ : Desk} {r : EStateM.Result Error Desk α}

/-- The desk as it stands when the transaction of a call begins. -/
structure Desk.Begun (d d₀ : Desk) : Prop where
  session : d₀.session = .of d.store
  clock : d₀.clock = d.clock
  names : d₀.ids.names = d.ids.names
  used : d.ids.used ≤ d₀.ids.used
  rival : d₀.hasRival = d.hasRival
  plan : d₀.plan = d.plan

/-- What came of a call: nothing is committed, or all that the work did. -/
inductive Settled (work : Work (Option α)) (isNothing : α → Bool) (d : Desk) :
    EStateM.Result Error Desk α → Prop where
  | failed {e : Error} {d' : Desk} : d'.store = d.store → Settled work isNothing d (.error e d')
  | nothing {a : α} {d' : Desk} : isNothing a = true → d'.store = d.store → Settled work isNothing d (.ok a d')
  | done {a : α} {d' d₀ d₁ : Desk} : isNothing a = false → d.Begun d₀ → work d₀ = .ok (some a) d₁ →
    d'.store = d₁.session.tables → Settled work isNothing d (.ok a d')

theorem Desk.Near.begun {d₀ : Desk} (h : d.Near d₁) (h₀ : d₁.Begun d₀) : d.Begun d₀ where
  session := by rw [h₀.session, h.store]
  clock := h₀.clock.trans h.clock
  names := h₀.names.trans h.names
  used := Nat.le_trans h.used h₀.used
  rival := h₀.rival.trans h.rival
  plan := h₀.plan.trans h.plan

theorem Desk.Begun.isHonest {d₀ : Desk} (h : d.Begun d₀) (hd : d.IsHonest) : d₀.IsHonest := by
  intro p n hn
  rw [h.plan] at hn
  exact hd p n hn

/-- The committed rows are those from before or those of the work. -/
theorem Settled.store (h : Settled work isNothing d (x d)) : (x.desk d).store = d.store ∨
    ∃ d₀ a d₁, d.Begun d₀ ∧ work d₀ = .ok (some a) d₁ ∧ (x.desk d).store = d₁.session.tables := by
  generalize hx : x d = r at h
  cases h with
  | failed h =>
    rw [Work.desk_of_error hx]
    exact .inl h
  | nothing _ h =>
    rw [Work.desk_of_ok hx]
    exact .inl h
  | done _ hb hw h =>
    rw [Work.desk_of_ok hx]
    exact .inr ⟨_, _, _, hb, hw, h⟩

/-! ## What stands around the work -/

theorem Settled.of_begun (d₁ : Desk) (hs : d₁.store = d.store) (hb : ∀ {d₀}, d₁.Begun d₀ → d.Begun d₀)
    (hr : Settled work isNothing d₁ r) : Settled work isNothing d r := by
  cases hr with
  | failed h => exact .failed (h.trans hs)
  | nothing hn h => exact .nothing hn (h.trans hs)
  | done hn h₀ hw h => exact .done hn (hb h₀) hw h

theorem Desk.Near.settled (h : d.Near d₁) : Settled work isNothing d₁ r → Settled work isNothing d r :=
  .of_begun d₁ h.store h.begun

theorem bind_settled {y : Work β} [Keeps Desk.Near y] {f : β → Work α}
    (h : ∀ b d₁, y d = .ok b d₁ → Settled work isNothing d₁ (f b d₁)) :
    Settled work isNothing d ((y >>= f) d) := by
  cases hy : y d with
  | ok b d₁ =>
    rw [Work.bind_of_ok hy]
    exact Desk.Near.settled (Keeps.ok hy) (h b d₁ hy)
  | error e d₁ =>
    rw [Work.bind_of_error hy]
    exact .failed (Keeps.error hy : d.Near d₁).store

/-- What follows the commit does not fail and leaves the committed rows. -/
theorem then_settled (work : Work (Option α)) (isNothing : α → Bool) (g : α → β) {work' : Work (Option β)}
    {isNothing' : β → Bool} {f : α → Work β}
    (hf : ∀ a d, ∃ d', f a d = .ok (g a) d' ∧ d'.store = d.store) (hn : ∀ a, isNothing' (g a) = isNothing a)
    (hw : ∀ {d₀ a d₁}, work d₀ = .ok (some a) d₁ → work' d₀ = .ok (some (g a)) d₁)
    (h : Settled work isNothing d (x d)) : Settled work' isNothing' d ((x >>= f) d) := by
  generalize hx : x d = r at h
  cases h with
  | failed h =>
    rw [Work.bind_of_error hx]
    exact .failed h
  | @nothing a d₁ ht h =>
    obtain ⟨d₂, hr, hs⟩ := hf a d₁
    rw [Work.bind_of_ok hx, hr]
    exact .nothing ((hn a).trans ht) (hs.trans h)
  | @done a d₁ _ _ ht h₀ hd h =>
    obtain ⟨d₂, hr, hs⟩ := hf a d₁
    rw [Work.bind_of_ok hx, hr]
    exact .done ((hn a).trans ht) h₀ (hw hd) (hs.trans h)

theorem map_settled {work' : Work (Option β)} {isNothing' : β → Bool} {g : α → β}
    (hn : ∀ a, isNothing' (g a) = isNothing a)
    (hw : ∀ {d₀ a d₁}, work d₀ = .ok (some a) d₁ → work' d₀ = .ok (some (g a)) d₁)
    (h : Settled work isNothing d (x d)) : Settled work' isNothing' d ((g <$> x) d) := by
  rw [map_eq_pure_bind]
  exact then_settled work isNothing g (fun a d => ⟨d, rfl, rfl⟩) hn hw h

/-- Failures are dealt with by work that commits nothing. -/
theorem recover_settled {handler : Error → Work α} (hx : Settled work isNothing d (x d))
    (hh : ∀ e d₁, Settled (pure none) isNothing d₁ (handler e d₁)) :
    Settled work isNothing d (x.recover handler d) := by
  generalize hr : x d = r at hx
  cases hx with
  | @failed e d₁ h =>
    rw [Work.recover_of_error hr]
    have hh := hh e d₁
    generalize handler e d₁ = r' at hh
    cases hh with
    | failed h' => exact .failed (h'.trans h)
    | nothing hn h' => exact .nothing hn (h'.trans h)
    | done _ _ hw _ => cases hw
  | nothing hn h =>
    rw [Work.recover_of_ok hr]
    exact .nothing hn h
  | done hn h₀ hw h =>
    rw [Work.recover_of_ok hr]
    exact .done hn h₀ hw h

theorem finally_settled {g : Desk → Desk} (hg : ∀ d, (g d).store = d.store)
    (h : Settled work isNothing d (x d)) : Settled work isNothing d (x.finally_ (modify g) d) := by
  generalize hx : x d = r at h
  cases h with
  | @failed e d₁ h =>
    rw [Work.finally_of_error hx]
    exact .failed ((hg d₁).trans h)
  | @nothing a d₁ hn h =>
    rw [Work.finally_of_ok hx]
    exact .nothing hn ((hg d₁).trans h)
  | @done a d₁ _ _ hn h₀ hw h =>
    rw [Work.finally_of_ok hx]
    exact .done hn h₀ hw ((hg d₁).trans h)

theorem withContext_settled {fields : List (String × Value)} (hd : d.IsHonest)
    (h : ∀ d₁ : Desk, d₁.IsHonest → Settled work isNothing d₁ (x d₁)) :
    Settled work isNothing d (withContext fields x d) :=
  -- the context is none of what a transaction begins with
  .of_begun (d.bound fields) rfl (fun h₀ => { h₀ with })
    (finally_settled (fun _ => rfl) (h (d.bound fields) hd))

theorem withLock_settled {loanId : String} {timeout : Value} (hd : d.IsHonest)
    (h : ∀ d₁ : Desk, d₁.IsHonest → Settled work isNothing d₁ (x d₁)) :
    Settled work isNothing d (Engine.withLock loanId timeout x d) := by
  cases hl : (d.locks.hold loanId timeout).2 with
  | error e =>
    rw [withLock_refused hl]
    cases hr : Engine.lockFailed (α := α) loanId timeout e d with
    | ok a d' =>
      obtain ⟨_, _, he⟩ := lockFailed_error (α := α) loanId timeout e d
      rw [he] at hr
      cases hr
    | error e' d' =>
      have : Kept Desk.Near α (Engine.lockFailed loanId timeout e) := Holds.holds
      exact .failed (this.error hr).store
  | ok _ =>
    unfold Engine.withLock
    rw [Work.bind_of_ok (Work.modifyGet_run _ d), hl]
    exact .of_begun (d.held loanId timeout) rfl (fun h₀ => { h₀ with })
      (finally_settled (fun _ => rfl) (h (d.held loanId timeout) hd))

theorem inSession_settled (hd : d.IsHonest)
    (h : ∀ d₁ : Desk, d₁.IsHonest → d₁.Begun d₁ → Settled work isNothing d₁ (x d₁)) :
    Settled work isNothing d (Engine.inSession x d) :=
  .of_begun { d with session := .of d.store } rfl (fun h₀ => { h₀ with })
    (finally_settled (fun _ => rfl)
      (h { d with session := .of d.store } hd ⟨rfl, rfl, rfl, Nat.le_refl _, rfl, rfl⟩))

/-! ## The work and its commit -/

theorem Settled.commit (hd : d₁.IsHonest) (h : d.Near d₁) (hn : isNothing a = false) (hb : d.Begun d)
    (hw : work d = .ok (some a) d₁) :
    Settled work isNothing d ((do Engine.commit; pure a : Work α) d₁) := by
  cases hc : Engine.commit d₁ with
  | ok u d₂ =>
    rw [Work.bind_of_ok hc, commit_ok hd (guarded_ok hc)]
    exact .done hn hb hw rfl
  | error e d₂ =>
    rw [Work.bind_of_error hc]
    obtain ⟨e₁, d₃, hc, hh⟩ := Work.recover_error hc
    have near : d₃.Near d₂ := by
      have : Keeps Desk.Near (guarded "commit" (throw e₁ : Work Unit)) := inferInstance
      exact this.error (by rw [guarded, Work.recover_of_error (Work.throw_run e₁ d₃)]; exact hh)
    exact .failed (near.store.trans ((commit_error hc).trans h.store))

end LoanLedger.Ledger

namespace LoanLedger.Engine

open Ledger

variable {α : Type} {x : Work α} {a : α} {d d₁ : Desk}

theorem transact_settled (g : Engine) (loanId : String) [Keeps Desk.Near x] (hd : d.IsHonest) :
    Settled (some <$> x) (fun _ => false) d (g.transact loanId x d) := by
  refine withLock_settled hd fun d₁ hd₁ => inSession_settled hd₁ fun d₂ hd₂ hb => ?_
  cases hx : x d₂ with
  | ok a d₃ =>
    have near : d₂.Near d₃ := Keeps.ok hx
    rw [Work.bind_of_ok hx]
    exact .commit (near.isHonest hd₂) near rfl hb (Work.map_of_ok hx)
  | error e d₃ =>
    rw [Work.bind_of_error hx]
    exact .failed (Keeps.error hx : d₂.Near d₃).store

/-! ## Events -/

def Decision.isDuplicate : Decision → Bool
  | duplicate .. => true
  | _ => false

/-- What an event does in its transaction, not yet committed. -/
def weighed (g : Engine) (e : Event) : Work (Option Decision) := do
  match ← g.weigh e with
  | .inl _ => pure none
  | .inr d => pure (some d)

theorem duplicateOf_ok {e : Event} {entry : Option Entry} {c : Decision}
    (h : duplicateOf e entry d = .ok c d₁) : c.isDuplicate = true := by
  obtain ⟨_, _, -, h⟩ := Work.bind_ok h
  obtain ⟨_, _, -, h⟩ := Work.bind_ok h
  obtain ⟨_, _, -, h⟩ := Work.bind_ok h
  cases h
  rfl

theorem weigh_inr {g : Engine} {e : Event} {c : Decision} (h : g.weigh e d = .ok (.inr c) d₁) :
    c.isDuplicate = false := by
  obtain ⟨l, _, -, h⟩ := Work.bind_ok h
  obtain ⟨s, _, -, h⟩ := Work.bind_ok h
  obtain ⟨entry, _, -, h⟩ := Work.bind_ok h
  cases entry with
  | some entry => cases h
  | none =>
    dsimp only at h
    cases hs : s.find? e.type with
    | none =>
      rw [hs] at h
      obtain ⟨c', h, hc⟩ := Work.map_ok h
      cases hc
      obtain ⟨_, _, -, h⟩ := Work.bind_ok h
      obtain ⟨_, _, -, h⟩ := Work.bind_ok h
      cases h
      rfl
    | some t =>
      rw [hs] at h
      obtain ⟨c', h, hc⟩ := Work.map_ok h
      cases hc
      obtain ⟨_, _, -, h⟩ := Work.bind_ok h
      obtain ⟨_, _, -, h⟩ := Work.bind_ok h
      obtain ⟨_, _, -, h⟩ := Work.bind_ok h
      obtain ⟨_, _, -, h⟩ := Work.bind_ok h
      cases h
      rfl

theorem decide_settled (g : Engine) (e : Event) (hd : d.IsHonest) (hb : d.Begun d) :
    Settled (g.weighed e) Decision.isDuplicate d (g.decide_ e d) := by
  unfold decide_
  cases hw : g.weigh e d with
  | error x d₁ =>
    rw [Work.bind_of_error hw]
    exact .failed (Keeps.error hw : d.Near d₁).store
  | ok r d₁ =>
    have near : d.Near d₁ := Keeps.ok hw
    rw [Work.bind_of_ok hw]
    cases r with
    | inl entry =>
      dsimp only
      cases hdup : duplicateOf e (some entry) d₁ with
      | ok c d₂ => exact .nothing (duplicateOf_ok hdup) ((Keeps.ok hdup : d₁.Near d₂).store.trans near.store)
      | error x d₂ => exact .failed ((Keeps.error hdup : d₁.Near d₂).store.trans near.store)
    | inr c => exact .commit (near.isHonest hd) near (weigh_inr hw) hb (Work.bind_of_ok hw)

theorem apply_settled (g : Engine) (e : Event) (hd : d.IsHonest) :
    Settled (g.weighed e) Decision.isDuplicate d (g.apply e d) := by
  refine inSession_settled hd fun d₁ hd₁ hb => recover_settled (decide_settled g e hd₁ hb) fun x d₂ => ?_
  by_cases hdup : x.isDuplicate
  · rw [if_pos hdup]
    cases hr : resolveDuplicate e d₂ with
    | ok c d₃ =>
      have near : d₂.Near d₃ := Keeps.ok hr
      obtain ⟨_, _, -, hr⟩ := Work.bind_ok hr
      obtain ⟨_, _, -, hr⟩ := Work.bind_ok hr
      exact .nothing (duplicateOf_ok hr) near.store
    | error x d₃ => exact .failed (Keeps.error hr : d₂.Near d₃).store
  · rw [if_neg hdup]
    exact .failed rfl

theorem handle_settled (g : Engine) (e : Event) (hd : d.IsHonest) :
    Settled (g.work (.handle e)) Answer.isDuplicate d (g.serve (.handle e) d) := by
  have outcome : Settled (Option.map (Outcome.of e) <$> g.weighed e) (·.decision.isDuplicate) d
      (g.handle e d) := by
    refine withContext_settled hd fun d₁ hd₁ => then_settled (g.weighed e)
      Decision.isDuplicate (Outcome.of e) (fun c d₂ => ?_) (fun _ => rfl)
      (fun hw => Work.map_of_ok hw) (recover_settled ?_ fun x d₂ => ?_)
    · obtain ⟨log, hr⟩ := emit_run .info "services.workflow_engine" "workflow_transition"
        ((Outcome.of e c).trace g.definition e) d₂
      exact ⟨{ d₂ with log }, Work.bind_of_ok hr, rfl⟩
    · exact withLock_settled hd₁ fun d₂ hd₂ => bind_settled fun _ d₃ hc =>
        apply_settled g e ((Keeps.ok hc : d₂.Near d₃).isHonest hd₂)
    · have throwing : Keeps Desk.Near (do g.noteFailure e x; throw x : Work Decision) := inferInstance
      cases hr : (do g.noteFailure e x; throw x : Work Decision) d₂ with
      | ok c d₃ =>
        obtain ⟨_, _, -, h⟩ := Work.bind_ok hr
        cases h
      | error x' d₃ => exact .failed (throwing.error hr).store
  refine map_settled (fun o => ?_) (fun {d₀ a d₁} hw => ?_) outcome
  · obtain ⟨_, _, _, c⟩ := o
    cases c <;> rfl
  · obtain ⟨c, hw, hc⟩ := Work.map_ok hw
    obtain ⟨r, d₂, hr, hw⟩ := Work.bind_ok hw
    change (g.weigh e >>= _) d₀ = _
    rw [Work.bind_of_ok hr]
    cases r with
    | inl entry => cases hw; cases hc
    | inr c' => cases hw; cases hc; rfl

/-- Every call of the engine is settled, whatever disturbs it. -/
theorem serve_settled (g : Engine) (c : Call) (hd : d.IsHonest) :
    Settled (g.work c) Answer.isDuplicate d (g.serve c d) := by
  cases c with
  | handle e => exact handle_settled g e hd
  | open_ loanId founderId actor =>
    refine map_settled (fun _ => rfl) (fun {d₀ a d₁} hw => ?_) (transact_settled g loanId hd)
    obtain ⟨l, hw, hl⟩ := Work.map_ok hw
    cases hl
    exact Work.bind_of_ok hw
  | pay loanId id actor =>
    refine map_settled (fun _ => rfl) (fun {d₀ a d₁} hw => ?_) (transact_settled g loanId hd)
    obtain ⟨l, hw, hl⟩ := Work.map_ok hw
    cases hl
    exact Work.bind_of_ok hw

end LoanLedger.Engine

/-! ## Blocks -/

namespace LoanLedger.Ledger

variable {α : Type} {d : Desk}

theorem finish_error {x : Work α} {e : Error} {d₁ : Desk} (hx : x d = .error e d₁) :
    ∃ d', x.recover (fun e => do
        rollback
        note ⟨.warning, "db.engine", "transaction_rolled_back", [], some e.report⟩
        throw e) d = .error e d' ∧ d'.store = d₁.store := by
  rw [Work.recover_of_error hx, Work.bind_of_ok (show rollback d₁ = .ok () _ from rfl)]
  obtain ⟨log, hr⟩ := note_run ⟨.warning, "db.engine", "transaction_rolled_back", [], some e.report⟩
    { d₁ with session := .of d₁.store }
  exact ⟨_, Work.bind_of_ok hr, rfl⟩

theorem finish_of_error (e : Error) (d : Desk) :
    ∃ d', finish (.error e : Except Error α) d = .error e d' ∧ d'.store = d.store :=
  finish_error (Work.bind_of_error (Work.throw_run e d))

/-- Work that fails in a transaction of its own is taken back. -/
theorem scope_of_error {x : Work α} {e : Error} {d₁ : Desk} (h : x (start.desk d) = .error e d₁) :
    ∃ d', scope x d = .error e d' ∧ d'.store = d₁.store := by
  obtain ⟨log, hs⟩ := start_run d
  rw [Work.desk_of_ok hs] at h
  unfold scope
  rw [Work.bind_of_ok hs, Work.bind_of_ok (Work.attempt_of_error h)]
  exact finish_of_error e d₁

/-- Work that went well is taken back when its commit fails. -/
theorem finish_of_refused {a : α} {e : Error} {d₁ : Desk} (hc : commit d = .error e d₁) :
    ∃ d', finish (.ok a) d = .error e d' ∧ d'.store = d₁.store := by
  have refused : (do let a ← pure a; commit; emit .debug "db.engine" "transaction_committed" []; pure a : Work α) d =
      .error e d₁ := by
    rw [Work.bind_of_ok (Work.pure_run a d), Work.bind_of_error hc]
  exact finish_error refused

theorem finish_settled {work : Work α} {d₁ : Desk} {r : Except Error α} (hd : d₁.IsHonest) (h : d.Near d₁)
    (hb : d.Begun d) (hw : ∀ {a}, r = .ok a → work d = .ok a d₁) :
    Settled (some <$> work) (fun _ => false) d (finish r d₁) := by
  cases r with
  | error e =>
    obtain ⟨d', hr, hs⟩ := finish_of_error (α := α) e d₁
    rw [hr]
    exact .failed (hs.trans h.store)
  | ok a =>
    cases hc : commit d₁ with
    | ok u d₂ =>
      obtain ⟨log, hr⟩ := emit_run .debug "db.engine" "transaction_committed" [] d₂
      have hx : (do let a ← pure a; commit; emit .debug "db.engine" "transaction_committed" []; pure a :
          Work α) d₁ = .ok a { d₂ with log } := by
        rw [Work.bind_of_ok (Work.pure_run a d₁), Work.bind_of_ok hc, Work.bind_of_ok hr]
        rfl
      rw [finish, Work.ofExcept_ok, Work.recover_of_ok hx]
      refine .done rfl hb (Work.map_of_ok (hw rfl)) ?_
      rw [commit_ok hd hc]
      rfl
    | error e d₂ =>
      obtain ⟨d', hr, hs⟩ := finish_of_refused (a := a) hc
      rw [hr]
      exact .failed (hs.trans ((commit_error hc).trans h.store))

/-- Work in a transaction of its own is settled, whatever disturbs it. -/
theorem transaction_settled (x : Work α) [Keeps Desk.Near x] (hd : d.IsHonest) :
    Settled (some <$> x) (fun _ => false) d (scope x d) := by
  obtain ⟨log, hs⟩ := start_run d
  have hb : Desk.Begun { d with session := .of d.store, log } { d with session := .of d.store, log } :=
    ⟨rfl, rfl, rfl, Nat.le_refl _, rfl, rfl⟩
  unfold scope
  rw [Work.bind_of_ok hs]
  refine .of_begun { d with session := .of d.store, log } rfl (fun h₀ => { h₀ with }) ?_
  cases hx : x { d with session := .of d.store, log } with
  | ok a d₁ =>
    have near := Keeps.ok (R := Desk.Near) hx
    rw [Work.bind_of_ok (Work.attempt_of_ok hx)]
    exact finish_settled (near.isHonest hd) near hb fun h => by cases h; exact hx
  | error e d₁ =>
    have near := Keeps.error (R := Desk.Near) hx
    rw [Work.bind_of_ok (Work.attempt_of_error hx)]
    exact finish_settled (near.isHonest hd) near hb fun h => by cases h

theorem scope_settled (b : Block α) (hd : d.IsHonest) :
    Settled (some <$> b.run) (fun _ => false) d (scope b.run d) :=
  transaction_settled b.run hd

end LoanLedger.Ledger
