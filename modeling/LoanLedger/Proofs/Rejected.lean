import LoanLedger.Proofs.Atomic
import LoanLedger.Proofs.Duplicates
import LoanLedger.Proofs.Serving
import LoanLedger.Proofs.Tame.Engine

/-!
# Events that are answered as duplicates

* `AuditLog.append_taken` : an entry is rejected as a duplicate only where one is recorded under its key;
* `weigh_taken`, `decide_taken`, `handle_taken` : so an event is answered as a duplicate only there, as nothing
  else that it does fails so.
-/

namespace LoanLedger.Ledger.AuditLog

variable {d d' : Desk} {e : Error}

/-- What is found under a key is recorded there. -/
theorem findTransition_some {key : String} {x : Entry} (h : findTransition key d = .ok (some x) d') :
    ∃ entry, d.session.tables.entryByKey? key = some entry := by
  rcases call_ok h with h | ⟨-, h, -⟩
  · obtain ⟨es, d₁, ha, h⟩ := Work.bind_ok (guarded_ok h)
    obtain ⟨rows, d₂, hq, ha⟩ := Work.bind_ok ha
    obtain ⟨rfl, -⟩ := query_ok hq
    cases ha
    cases he : d.session.tables.entryByKey? key with
    | some entry => exact ⟨entry, rfl⟩
    | none =>
      rw [show (d.passed .findTransition).session.tables.entryByKey? key = none from he] at h
      cases h
  · cases h

theorem append_taken {loanId : String} {r : AuditRecord} (hd : d.IsFrank) (h : append loanId r d = .error e d')
    (he : e.isDuplicate = true) :
    ∃ key entry, r.key = some key ∧ d.session.tables.entryByKey? key = some entry := by
  obtain ⟨key, d₁, hk, near, hs, h⟩ := append_conflict hd h he
  rcases Work.bind_error h with h | ⟨found, d₂, hf, h⟩
  · exact absurd h ((findTransition_tame key).ne_duplicate (by decide) (near.isFrank hd) he)
  · cases found with
    | none =>
      cases h
      cases he
    | some x =>
      obtain ⟨entry, hentry⟩ := findTransition_some hf
      exact ⟨key, entry, hk, hs ▸ hentry⟩

end LoanLedger.Ledger.AuditLog

namespace LoanLedger.Engine

open Ledger Workflow

variable {d d' : Desk} {g : Engine} {e : Event} {err : Ledger.Error}

/-- A transition fails as a duplicate only where an entry is recorded under the key of the event. -/
theorem take_taken {fromState : String} {t : Transition} (hd : d.IsHonest) (hf : d.IsFrank)
    (hl : ∀ l, d.session.tables.loan? e.loanId = some l → l.state = fromState)
    (h : g.take e fromState t d = .error err d') (he : err.isDuplicate = true) :
    ∃ entry, d.session.tables.entryByKey? e.key = some entry := by
  rcases Work.bind_error h with h | ⟨rs, d₁, hacts, h₁⟩
  · exact absurd h ((Tame.mapM (doAction_tame g e fromState t) _).ne_duplicate (by decide) hf he)
  have near₁ : d.Near d₁ := Keeps.ok hacts
  have remarked := actions_ok hacts
  rcases Work.bind_error h₁ with h | ⟨o, d₂, hu, h₂⟩
  · exact absurd h ((Loans.updateState_tame _ _ _).ne_duplicate (by decide) (near₁.isFrank hf) he)
  have near₂ : d.Near d₂ := Frame.trans near₁ (Keeps.ok hu)
  have moved := Loans.updateState_ok (near₁.isHonest hd)
    (fun l hl' => hl l ((loan?_of_loans remarked.loans _).symm.trans hl')) hu
  rcases Work.bind_error h₂ with h | ⟨o, d₃, ha, h₃⟩
  · obtain ⟨key, entry, hk, hentry⟩ := AuditLog.append_taken (near₂.isFrank hf) h he
    cases hk
    rw [entryByKey?_of_entries moved.entries, remarked.entryByKey?] at hentry
    exact ⟨entry, hentry⟩
  · have near₃ : d.Near d₃ := Frame.trans near₂ (Keeps.ok ha)
    exact absurd h₃
      (((checkCancelled_tame e _).bind fun _ => .pure _).ne_duplicate (by decide) (near₃.isFrank hf) he)

theorem weigh_inl {entry : Entry} (h : g.weigh e d = .ok (.inl entry) d') :
    ∃ entry, d.session.tables.entryByKey? e.key = some entry := by
  obtain ⟨l, d₁, hr, hf⟩ := weigh_found h
  exact (Loans.require_ok hr).1 ▸ AuditLog.findTransition_some hf

/-- An event is weighed as a duplicate only where an entry is recorded under its key. -/
theorem weigh_taken (hd : d.IsHonest) (hf : d.IsFrank) (h : g.weigh e d = .error err d')
    (he : err.isDuplicate = true) : ∃ entry, d.session.tables.entryByKey? e.key = some entry := by
  rcases Work.bind_error h with h | ⟨l, d₁, hr, h₁⟩
  · exact absurd h ((Loans.require_tame _ _).ne_duplicate (by decide) hf he)
  have near₁ : d.Near d₁ := Keeps.ok hr
  obtain ⟨ht₁, -, hl⟩ := Loans.require_ok hr
  rcases Work.bind_error h₁ with h | ⟨s, d₂, hs, h₂⟩
  · exact absurd h ((stateOf_tame g l).ne_duplicate (by decide) (near₁.isFrank hf) he)
  obtain ⟨-, rfl⟩ := stateOf_ok hs
  rcases Work.bind_error h₂ with h | ⟨found, d₃, hfound, h₃⟩
  · exact absurd h ((AuditLog.findTransition_tame _).ne_duplicate (by decide) (near₁.isFrank hf) he)
  have near₃ : d.Near d₃ := Frame.trans near₁ (Keeps.ok hfound)
  have ht₃ : d₃.session.tables = d.session.tables := (congrArg _ (AuditLog.findTransition_ok hfound)).trans ht₁
  cases found with
  | some x => cases h₃
  | none =>
    dsimp only at h₃
    cases htr : s.find? e.type with
    | none =>
      rw [htr] at h₃
      exact absurd (Work.map_error h₃) ((ignore_tame _ _).ne_duplicate (by decide) (near₃.isFrank hf) he)
    | some tr =>
      rw [htr] at h₃
      rw [← ht₃] at hl ⊢
      exact take_taken (near₃.isHonest hd) (near₃.isFrank hf) (fun l' hl' => by cases (hl rfl).symm.trans hl'; rfl)
        (Work.map_error h₃) he

theorem decide_taken {c : Decision} (h : g.decide_ e d = .ok c d') (hc : c.isDuplicate = true) :
    ∃ entry, d.session.tables.entryByKey? e.key = some entry := by
  obtain ⟨r, d₁, hw, h₁⟩ := Work.bind_ok h
  cases r with
  | inl entry => exact weigh_inl hw
  | inr c' =>
    obtain ⟨_, d₂, -, h₂⟩ := Work.bind_ok h₁
    cases h₂
    rw [weigh_inr hw] at hc
    cases hc

theorem decide_error_taken (hd : d.IsHonest) (hf : d.IsFrank) (h : g.decide_ e d = .error err d')
    (he : err.isDuplicate = true) : ∃ entry, d.session.tables.entryByKey? e.key = some entry := by
  rcases Work.bind_error h with h | ⟨r, d₁, hw, h₁⟩
  · exact weigh_taken hd hf h he
  have near : d.Near d₁ := Keeps.ok hw
  cases r with
  | inl entry => exact weigh_inl hw
  | inr c =>
    rcases Work.bind_error h₁ with h | ⟨_, _, -, h⟩
    · exact absurd h (commit_tame.ne_duplicate (by decide) (near.isFrank hf) he)
    · cases h

theorem apply_taken {c : Decision} (hd : d.IsHonest) (hf : d.IsFrank) (h : g.apply e d = .ok c d')
    (hc : c.isDuplicate = true) : ∃ entry, d.store.entryByKey? e.key = some entry := by
  obtain ⟨d₁, h₁⟩ := inSession_ok h
  rcases Work.recover_ok h₁ with h₂ | ⟨err, d₂, h₂, h₃⟩
  · exact decide_taken h₂ hc
  · split at h₃
    · next he => exact decide_error_taken (d := { d with session := .of d.store }) hd hf h₂ he
    · cases h₃

theorem handle_taken {o : Outcome} (hd : d.IsHonest) (hf : d.IsFrank) (h : g.handle e d = .ok o d')
    (ho : o.decision.isDuplicate = true) : ∃ entry, d.store.entryByKey? e.key = some entry := by
  obtain ⟨c, d₁, d₂, hlocked, rfl, -⟩ := handle_ok h
  obtain ⟨d₃, hx⟩ := withLock_ok hlocked
  obtain ⟨_, d₄, hcheck, happly⟩ := Work.bind_ok hx
  have near : ((d.bound (eventContext e)).held e.loanId g.lockTimeout).Near d₄ := Keeps.ok hcheck
  have taken := apply_taken (near.isHonest hd) (near.isFrank hf) happly ho
  rw [near.store] at taken
  exact taken

end LoanLedger.Engine
