import LoanLedger.Proofs.Appending
import LoanLedger.Proofs.Tame.Ledger

/-!
# Entries that are rejected as duplicates

* `Desk.IsFrank d` : no fault pretends that a transition was recorded before;
* `Tame.ne_duplicate` : at such a desk work that has no such cause does not fail as a duplicate;
* `AuditLog.append_duplicate` : at such a desk an entry that is rejected as a duplicate leaves the rows of
  the session as they were: it takes no number.
-/

namespace LoanLedger.Ledger

variable {α : Type} {x : Work α} {d d' : Desk} {e : Error} {cs : List Cause}

/-- No fault pretends that a transition was recorded before. -/
def Desk.IsFrank (d : Desk) : Prop :=
  ∀ p n e, (p, Effect.fail n e) ∈ d.plan → e.isDuplicate = false

theorem Desk.IsFrank.spares (hd : d.IsFrank) : d.Spares .duplicateTransition :=
  fun e ⟨p, n, hn⟩ => of_decide_eq_false (hd p n e hn)

theorem Desk.Beside.isFrank (h : d.Beside d') (hd : d.IsFrank) : d'.IsFrank := by
  intro p n e hn
  rw [h.plan] at hn
  exact hd p n e hn

theorem Tame.ne_duplicate (hx : Tame cs x) (hc : .failure .duplicateTransition ∉ cs) (hd : d.IsFrank)
    (he : e.isDuplicate = true) : x d ≠ .error e d' :=
  fun h => hx.kind_ne hc hd.spares h (of_decide_eq_true he)

namespace AuditLog

/-- A duplicate is told as it is: a refusal of the storage would be none. -/
theorem guarded_duplicate {operation : String} (h : guarded operation x d = .error e d') (he : e.isDuplicate = true) :
    x d = .error e d' := by
  obtain ⟨e₁, d₁, hx, hh⟩ := Work.recover_error h
  split at hh
  · obtain ⟨log, hr⟩ := emit_run .error "services.ledger" "ledger_unavailable" _ d₁
    rw [Work.bind_of_ok hr] at hh
    cases hh
    cases he
  · cases hh
    exact hx

theorem afterConflict_duplicate {loanId key : String} (hd : d.IsFrank) (h : afterConflict loanId key d = .error e d')
    (he : e.isDuplicate = true) : d'.session = d.session := by
  rcases Work.bind_error h with h | ⟨found, d₁, hf, h⟩
  · exact absurd h ((findTransition_tame key).ne_duplicate (by decide) hd he)
  · cases found with
    | none =>
      cases h
      cases he
    | some x =>
      cases h
      exact findTransition_ok hf

/-- An entry is rejected as a duplicate only after a conflict, with its changes taken back. -/
theorem append_conflict {loanId : String} {r : AuditRecord} (hd : d.IsFrank)
    (h : append loanId r d = .error e d') (he : e.isDuplicate = true) :
    ∃ key d₁, r.key = some key ∧ d.Near d₁ ∧ d₁.session = d.session ∧
      afterConflict loanId key d₁ = .error e d' := by
  rw [append, call_run] at h
  split at h
  · have near : d.Near (d.passed .appendLog) := Frame.pass d _
    rcases Work.bind_error h with h | ⟨x, d₁, -, h⟩
    · have hx := guarded_duplicate h he
      cases hk : r.key with
      | none =>
        rw [hk] at hx
        exact absurd hx ((next_tame loanId r).ne_duplicate (by decide) (near.isFrank hd) he)
      | some key =>
        rw [hk] at hx
        rcases savepoint_error hx with hx | ⟨d₂, h₂, -, hx⟩ | ⟨d₂, h₂, hs, hy⟩
        · exact absurd hx ((Tame.statement (.head [])).ne_duplicate (by decide) (near.isFrank hd) he)
        · have released := (next_tame loanId r).bind fun x => (Tame.statement (by decide)).bind fun _ => .pure x
          exact absurd hx (released.ne_duplicate (by decide) ((Frame.trans near h₂ : d.Near d₂).isFrank hd) he)
        · exact ⟨key, d₂, rfl, Frame.trans near h₂, hs, hy⟩
    · rcases Work.bind_error h with h | ⟨_, _, -, h⟩
      · obtain ⟨log, hr⟩ := emit_run .info "services.ledger" "audit_entry_appended" _ d₁
        rw [hr] at h
        cases h
      · cases h
  · cases h
  · next hf =>
    cases h
    obtain ⟨n, hn⟩ := judge_failed hf
    rw [hd _ n _ hn] at he
    cases he

theorem append_duplicate {loanId : String} {r : AuditRecord} (hd : d.IsFrank)
    (h : append loanId r d = .error e d') (he : e.isDuplicate = true) :
    d'.session.tables = d.session.tables := by
  obtain ⟨key, d₁, -, near, hs, h⟩ := append_conflict hd h he
  rw [afterConflict_duplicate (near.isFrank hd) h he, hs]

end AuditLog

end LoanLedger.Ledger
