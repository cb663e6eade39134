import LoanLedger.Proofs.Once
import LoanLedger.Proofs.Tame.Engine

/-!
# Loans are in declared states

* `OneRow t` : every loan has one row, which is the one that is found under its id;
* `Definition.Names x state` : the definition declares the state, and its id is not empty;
* `weigh_declared`, `handle_declared` : where the states of loans are declared, no event fails on an invalid state;
* `states_stay_declared` : so it is in every run of calls under a valid definition.
-/

namespace LoanLedger

/-- The definition declares the state, and its id is not empty. -/
def Workflow.Definition.Names (x : Workflow.Definition) (state : String) : Prop :=
  state ≠ "" ∧ ∃ s ∈ x.states, s.id = state ∧ x.find? state = some s

namespace Engine

open Ledger Workflow

variable {d d' : Desk} {g : Engine} {c : Call} {a : Answer} {e : Event} {err : Ledger.Error} {t t' : Tables}
  {loanId state : String} {x : Definition} {ts : List Turn}

/-! ## Rows -/

def OneRow (t : Tables) : Prop := ∀ l ∈ t.loans, t.loan? l.loanId = some l

theorem OneRow.of_loans (h : OneRow t) (hl : t'.loans = t.loans) : OneRow t' := by
  intro l hm
  rw [loan?_of_loans hl]
  exact h l (hl ▸ hm)

theorem OneRow.moved (h : OneRow t) (hm : Moved loanId state t t') : OneRow t' := by
  obtain ⟨change, hc, -, rfl⟩ := hm.row
  intro l hl
  obtain ⟨l₀, hl₀, rfl⟩ := List.mem_map.mp hl
  have found := h l₀ hl₀
  split
  · next ho => rw [hc, loan?_changeLoan t hc, if_pos ho, found, Option.map_some]
  · next ho => rw [loan?_changeLoan t hc, if_neg ho, found]

theorem Told.oneRow (h : g.Told t c a t') (ht : OneRow t) : OneRow t' := by
  cases h with
  | @opened loanId founderId actor _ _ _ hnew ha =>
    refine OneRow.of_loans (t := { t with loans := t.loans ++ [Loans.initial loanId founderId g.definition] })
      (fun l hl => ?_) ha.loans
    rw [loan?_added]
    rcases List.mem_append.mp hl with hl | hl
    · rw [ht l hl, Option.some_or]
    · obtain rfl := List.mem_singleton.mp hl
      rw [show t.loan? (Loans.initial loanId founderId g.definition).loanId = none from hnew, if_pos rfl,
        Option.none_or]
  | ignored _ _ _ ha => exact ht.of_loans ha.loans
  | applied _ _ _ hr hm ha => exact ((ht.of_loans hr.loans).moved hm).of_loans ha.loans
  | paid _ hr => exact ht.of_loans hr.loans

/-! ## Events -/

theorem Definition.names_of_isSome (hx : x.isValid = true) (h : (x.find? state).isSome) : x.Names state := by
  obtain ⟨s, hs⟩ := Option.isSome_iff_exists.mp h
  have hm := List.mem_of_find?_eq_some hs
  have hid := Definition.id_of_find? hs
  exact ⟨hid ▸ Definition.id_ne_empty hx hm, s, hm, hid, hs⟩

theorem weigh_declared (hd : d.Spares .invalidState) (ht : Declared g.definition d.session.tables)
    (h : g.weigh e d = .error err d') : err.kind? ≠ some .invalidState := by
  rcases Work.bind_error h with h | ⟨l, d₁, hr, h₁⟩
  · exact (Loans.require_tame _ _).kind_ne (by decide) hd h
  have near : d.Near d₁ := Keeps.ok hr
  obtain ⟨s, hs⟩ := Option.isSome_iff_exists.mp (ht ((Loans.require_ok hr).2.2 rfl))
  rw [Work.bind_of_ok (stateOf_of_some d₁ hs)] at h₁
  exact (weighed_tame g e l s).kind_ne (by decide) (near.spares hd) h₁

theorem decide_declared (hd : d.Spares .invalidState) (ht : Declared g.definition d.session.tables)
    (h : g.decide_ e d = .error err d') : err.kind? ≠ some .invalidState := by
  rcases Work.bind_error h with h | ⟨r, d₁, hw, h₁⟩
  · exact weigh_declared hd ht h
  have near : d.Near d₁ := Keeps.ok hw
  cases r with
  | inl entry => exact (duplicateOf_tame e _).kind_ne (by decide) (near.spares hd) h₁
  | inr c => exact (commit_tame.bind fun _ => .pure c).kind_ne (by decide) (near.spares hd) h₁

theorem apply_declared (hd : d.Spares .invalidState) (ht : Declared g.definition d.store)
    (h : g.apply e d = .error err d') : err.kind? ≠ some .invalidState := by
  obtain ⟨d₁, h⟩ := inSession_error h
  obtain ⟨err₁, d₂, h₁, h₂⟩ := Work.recover_error h
  have spared : Desk.Spares { d with session := .of d.store } .invalidState := hd
  split at h₂
  · have beside : Desk.Beside { d with session := .of d.store } d₂ := ((decide_tame g e).quiet.error h₁).toBeside
    exact (resolveDuplicate_tame e).kind_ne (by decide) (beside.spares spared) h₂
  · cases h₂
    exact decide_declared spared ht h₁

/-- Where the states of loans are declared, no event fails on an invalid state. -/
theorem handle_declared (hd : d.Spares .invalidState) (ht : Declared g.definition d.store)
    (h : g.handle e d = .error err d') : err.kind? ≠ some .invalidState := by
  have bound : Desk.Spares (d.bound (eventContext e)) .invalidState := hd
  have held : Desk.Spares ((d.bound (eventContext e)).held e.loanId g.lockTimeout) .invalidState := hd
  obtain ⟨d₁, -, hl, -⟩ := handle_error h
  rcases withLock_error hl with ⟨r, hr⟩ | ⟨d₂, hx⟩
  · exact (lockFailed_tame e.loanId g.lockTimeout r).kind_ne (by decide) bound hr
  rcases Work.bind_error hx with hc | ⟨_, d₃, hc, ha⟩
  · exact (checkCancelled_tame e _).kind_ne (by decide) held hc
  · have near : ((d.bound (eventContext e)).held e.loanId g.lockTimeout).Near d₃ := Keeps.ok hc
    have declared : Declared g.definition d₃.store := near.store ▸ ht
    exact apply_declared (near.spares held) declared ha

/-! ## Runs -/

/-- No loan is ever in an invalid state. In a run of calls under a valid definition, however they were disturbed,
every loan is in a state that the definition declares, with an id that is not empty; so no event fails on an
invalid state, unless a fault pretends so. -/
theorem states_stay_declared (x : Definition) (d : Desk) (ts : List Turn) (hx : x.isValid = true) (hd : d.IsNew)
    (hts : ∀ y ∈ ts, y.IsCallOf (·.definition = x)) :
    (∀ l ∈ (d.after ts).store.loans, x.Names l.state) ∧
    ∀ (g : Engine) (e : Event) (clock : Clock) (z : Disturbance) (err : Ledger.Error), g.definition = x →
      z.Spares .invalidState → (g.handle e).answer ((d.after ts).prepared clock z) = .error err →
        err.kind? ≠ some .invalidState := by
  have declared : Declared x (d.after ts).store := by
    refine run_keeps (P := Declared x) (fun {g c a t t'} hg hP ht => ?_) hts ?_
    · obtain rfl : g.definition = x := hg
      exact ht.declared hx hP
    · rw [hd.store]
      exact fun hl => nomatch hl
  have rows : OneRow (d.after ts).store :=
    run_keeps (fun _ hP ht => ht.oneRow hP) hts (hd.store ▸ fun _ hl => nomatch hl)
  refine ⟨fun l hl => Definition.names_of_isSome hx (declared (rows l hl)), fun g e clock z err hg hz h => ?_⟩
  obtain ⟨d', h⟩ := Work.error_of_answer h
  subst hg
  exact handle_declared (hz.desk _ clock) declared h

theorem states_stay_declared_at_noon :
    looping.definition.isValid = true ∧ noon.IsNew ∧
      (∀ y ∈ loopedOnce, y.IsCallOf (·.definition = looping.definition)) ∧
      (∃ l ∈ (noon.after loopedOnce).store.loans, l.loanId = "L1" ∧ looping.definition.Names l.state) ∧
      Disturbance.Spares .none .invalidState ∧
      ∀ err, (looping.handle knock).answer ((noon.after loopedOnce).prepared noon.clock .none) = .error err →
        err.kind? ≠ some .invalidState := by
  have valid : looping.definition.isValid = true := by decide
  obtain ⟨states, handled⟩ :=
    states_stay_declared looping.definition noon loopedOnce valid ⟨rfl, rfl⟩ loopedOnce_isCallOf
  obtain ⟨⟨l, hl⟩, -⟩ := loopedOnce_applies.recorded fun y hy => (loopedOnce_isCallOf y hy).isCall
  have row := List.mem_of_find?_eq_some hl
  exact ⟨valid, ⟨rfl, rfl⟩, loopedOnce_isCallOf, ⟨l, row, loan?_id hl, states l row⟩,
    Disturbance.none_spares _, fun err => handled looping knock noon.clock .none err rfl (Disturbance.none_spares _)⟩

end Engine

end LoanLedger
