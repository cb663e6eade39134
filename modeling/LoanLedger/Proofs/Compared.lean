import LoanLedger.Proofs.Atomic
import LoanLedger.Proofs.Evidence
import LoanLedger.Proofs.Serving
import LoanLedger.Proofs.Steady

/-!
# Compare and set

A session goes by the copy of a loan that it knows, while another writer may have changed the row.

* `Compared t row l state expected answer t'` : what comes of moving the loan with the row `row` and the copy `l`;
  `Loans.updateState_compared` : where nothing disturbs it, that comes of it;
* `Desk.Reads d l` : the session knows a loan as its row says;
* `updateState_rivalled`, `handle_rivalled` : when another writer comes in between, no event moves its loan to another
  state, however the work is disturbed besides;
* `loan_compared_and_set` : both; `same_state_unchecked` : but a loan that stays in its state is not compared.
-/

namespace LoanLedger.Ledger

open Engine

variable {d d' : Desk} {loanId state : String} {expected : Option String} {l row : Loan} {t t' : Tables}
  {answer : Except Error (Option Loan)}

/-! ## What comes of moving a loan -/

/-- What comes of moving a loan, by its row and the copy that the session goes by. -/
inductive Compared (t : Tables) (row l : Loan) (state : String) (expected : Option String) :
    Except Error (Option Loan) → Tables → Prop where
  | unexpected : (∃ s ∈ expected, s ≠ l.state) →
    Compared t row l state expected (.error (.failure (.optimisticLock row.loanId expected (some l.state)))) t
  /-- The row was changed since it was read. -/
  | stale : (∀ s ∈ expected, s = l.state) → state ≠ l.state → row.version ≠ l.version →
    Compared t row l state expected (.error (.failure (.optimisticLock row.loanId (some l.state) none))) t
  | moved : (∀ s ∈ expected, s = l.state) → state ≠ l.state → row.version = l.version →
    Compared t row l state expected (.ok (some { l with state, version := l.version + 1 }))
      (t.changeLoan row.loanId fun row => { row with state, version := l.version + 1 })
  /-- The loan is to stay in its state, and nothing is written or compared. -/
  | stays : (∀ s ∈ expected, s = l.state) → state = l.state → Compared t row l state expected (.ok (some l)) t

namespace Compared

/-- A loan that nobody else changed is moved exactly when it is in the expected state, and nothing is written
otherwise. -/
theorem of_current (h : Compared t row l state expected answer t') (hv : row.version = l.version) :
    ((∃ o, answer = .ok o) ↔ ∀ s ∈ expected, s = l.state) ∧
      ((∃ s ∈ expected, s ≠ l.state) →
        answer = .error (.failure (.optimisticLock row.loanId expected (some l.state))) ∧ t' = t) := by
  cases h with
  | unexpected hs =>
    obtain ⟨s, hs, hne⟩ := hs
    exact ⟨⟨nofun, fun h => absurd (h s hs) hne⟩, fun _ => ⟨rfl, rfl⟩⟩
  | stale _ _ hne => exact absurd hv hne
  | moved hs _ _ | stays hs _ =>
    exact ⟨⟨fun _ => hs, fun _ => ⟨_, rfl⟩⟩, fun ⟨s, hm, hne⟩ => absurd (hs s hm) hne⟩

/-- A loan whose row was changed is not moved, unless it is in the expected state and is to stay there. -/
theorem of_changed (h : Compared t row l state expected answer t') (hv : row.version ≠ l.version)
    (hne : state ≠ l.state ∨ ∃ s ∈ expected, s ≠ l.state) :
    (∃ e a, answer = .error (.failure (.optimisticLock row.loanId e a))) ∧ t' = t := by
  cases h with
  | unexpected | stale => exact ⟨⟨_, _, rfl⟩, rfl⟩
  | moved _ _ heq => exact absurd heq hv
  | stays hexp hs =>
    obtain hne | ⟨s, hm, hne⟩ := hne
    · exact absurd hs hne
    · exact absurd (hexp s hm) hne

end Compared

namespace Loans

theorem write_stale (hd : d.IsReady) (hne : state ≠ l.state) (hrow : d.session.tables.loan? l.loanId = some row)
    (hv : row.version ≠ l.version) : write l state d = .error (.storage .stale) d.broken := by
  have changed : ¬ (d.session.tables.loan? l.loanId).any (·.version = l.version) = true := by
    rw [hrow]
    simpa using hv
  rw [write, if_neg hne]
  exact Work.bind_of_error (change_refused hd (if_neg changed))

theorem updateState_unexpected {d₁ : Desk} (hd : d.IsCalm) (hr : require loanId false d = .ok l d₁)
    (hexp : ∃ s ∈ expected, s ≠ l.state) :
    updateState loanId state expected d = .error (.failure (.optimisticLock loanId expected (some l.state))) d₁ := by
  obtain ⟨s, rfl, hne⟩ := hexp
  refine (Work.bind_of_ok (giveWay_calm hd loanId)).trans ((call_calm hd _ _ _).trans ((Work.bind_of_ok hr).trans ?_))
  rw [if_pos (by simpa using hne)]
  rfl

theorem updateState_stale {d₁ d₂ : Desk} (hd : d.IsCalm) (hr : require loanId false d = .ok l d₁)
    (hexp : ∀ s ∈ expected, s = l.state) (hw : write l state d₁ = .error (.storage .stale) d₂) :
    ∃ d₃, updateState loanId state expected d =
        .error (.failure (.optimisticLock l.loanId (some l.state) none)) d₃ ∧
      d₃.session = d₂.session := by
  obtain ⟨d₃, he, -, hs, -⟩ := emit_calm .warning "services.ledger" "loan_version_conflict"
    [("loan_id", .text l.loanId), ("expected_state", .text l.state)] d₂
  have told : (conflicted l : Work Loan) d₂ = .error (.failure (.optimisticLock l.loanId (some l.state) none)) d₃ :=
    (Work.bind_of_ok he).trans rfl
  refine ⟨d₃, ?_, hs⟩
  refine (Work.bind_of_ok (giveWay_calm hd loanId)).trans ((call_calm hd _ _ _).trans ((Work.bind_of_ok hr).trans ?_))
  rw [if_neg (by cases expected <;> simp_all)]
  exact Work.bind_of_error ((Work.recover_of_error ((Work.recover_of_error hw).trans told)).trans rfl)

/-- Where nothing disturbs it, moving a loan compares the copy that the session goes by. -/
theorem updateState_compared (hd : d.IsReady) (hrow : d.session.tables.loan? loanId = some row) (state : String)
    (expected : Option String) :
    Compared d.session.tables row (d.session.copyOf row) state expected ((updateState loanId state expected).answer d)
      ((updateState loanId state expected).desk d).session.tables := by
  have hid := loan?_id hrow
  have copied : require loanId false d = .ok (d.session.copyOf row) (knowing d (d.session.copyOf row)) :=
    (Work.bind_of_ok (get_copy hd hrow)).trans rfl
  have copyId := copyOf_id d.session row
  generalize d.session.copyOf row = l at copied copyId ⊢
  have ready := knowing_isReady hd l
  have rowOf : (knowing d l).session.tables.loan? l.loanId = some row := by
    rw [copyId, hid]
    exact hrow
  by_cases hexp : ∀ s ∈ expected, s = l.state
  · by_cases hs : state = l.state
    · obtain ⟨d₃, hu, hs₃⟩ := updateState_written hd.toIsCalm copied hexp (write_same hs _)
      rw [Work.answer_of_ok hu, Work.desk_of_ok hu, hs₃]
      exact .stays hexp hs
    · by_cases hv : row.version = l.version
      · obtain ⟨d₃, hu, hs₃⟩ := updateState_written hd.toIsCalm copied hexp (write_moved ready hs rowOf hv)
        have moved := Compared.moved (t := d.session.tables) hexp hs hv
        rw [← copyId] at moved
        rw [Work.answer_of_ok hu, Work.desk_of_ok hu, hs₃]
        exact moved
      · obtain ⟨d₃, hu, hs₃⟩ := updateState_stale hd.toIsCalm copied hexp (write_stale ready hs rowOf hv)
        rw [Work.answer_of_error hu, Work.desk_of_error hu, hs₃, copyId]
        exact .stale hexp hs hv
  · have mismatch : ∃ s ∈ expected, s ≠ l.state := by simpa using hexp
    have hu : updateState loanId state expected d = _ := updateState_unexpected hd.toIsCalm copied mismatch
    rw [Work.answer_of_error hu, Work.desk_of_error hu, ← hid]
    exact .unexpected mismatch

end Loans

/-! ## Another writer comes in between -/

/-- The session knows a loan as its row says. -/
structure Desk.Reads (d : Desk) (l : Loan) : Prop where
  row : d.session.tables.loan? l.loanId = some l
  copy : d.session.known.loans.find? (·.loanId = l.loanId) = some l

theorem Desk.Reads.steady (h : d.Reads l) (hs : d.SameLoans d') : d'.Reads l where
  row := (loan?_of_loans hs.rows _).trans h.row
  copy := by rw [hs.copies, h.copy]

theorem Desk.Reads.of_session (h : d.Reads l) (hs : d'.session = d.session) : d'.Reads l :=
  h.steady (.of_session hs)

namespace Loans

/-- What is read afresh is known as its row says. -/
theorem require_reads (h : require loanId true d = .ok l d') : d'.Reads l ∧ l.loanId = loanId := by
  obtain ⟨o, d₁, hg, h₁⟩ := Work.bind_ok h
  cases o with
  | none => cases h₁
  | some l' =>
    cases h₁
    rcases call_ok hg with hg | ⟨-, hn, -⟩
    · obtain ⟨found, d₂, hq, h₂⟩ := Work.bind_ok (guarded_ok hg)
      obtain ⟨rfl, hs⟩ := query_ok hq
      cases hl : (d.passed .getLoan).session.tables.loan? loanId with
      | none =>
        rw [hl] at h₂
        cases h₂
      | some row =>
        rw [hl] at h₂
        simp only [↓reduceIte] at h₂
        cases h₂
        have hid := loan?_id hl
        refine ⟨⟨?_, ?_⟩, hid⟩
        · rw [hid]
          exact (congrArg (fun s => s.tables.loan? loanId) hs).trans hl
        · exact List.find?_cons_of_pos (by simp)
    · cases hn

/-- What is read again is what the session knows. -/
theorem require_known (h : require loanId false d = .ok l d') {x : Loan}
    (hk : d.session.known.loans.find? (·.loanId = loanId) = some x) : l = x := by
  obtain ⟨o, d₁, hg, h₁⟩ := Work.bind_ok h
  cases o with
  | none => cases h₁
  | some l' =>
    cases h₁
    rcases call_ok hg with hg | ⟨-, hn, -⟩
    · obtain ⟨found, d₂, hq, h₂⟩ := Work.bind_ok (guarded_ok hg)
      obtain ⟨rfl, hs⟩ := query_ok hq
      have hs : d₂.session = d.session := hs
      cases hl : (d.passed .getLoan).session.tables.loan? loanId with
      | none =>
        rw [hl] at h₂
        cases h₂
      | some row =>
        rw [hl] at h₂
        cases h₂
        rw [hs, hk]
        rfl
    · cases hn

/-- What is written has the version of the copy, or there was nothing to write. -/
theorem write_current {moved : Loan} (h : write l state d = .ok moved d') :
    state = l.state ∨ ∃ row, d.session.tables.loan? l.loanId = some row ∧ row.version = l.version := by
  unfold write at h
  split at h
  · next hs => exact .inl hs
  · obtain ⟨_, d₁, hc, -⟩ := Work.bind_ok h
    obtain ⟨t, ht, -⟩ := change_ok hc
    split at ht
    · next hv =>
      cases hrow : d.session.tables.loan? l.loanId with
      | none => simp [hrow] at hv
      | some row => exact .inr ⟨row, rfl, by simpa [hrow] using hv⟩
    · cases ht

/-- Another writer changes the row of a loan first. -/
theorem giveWay_rivalled (h : d.hasRival = true) (loanId : String) : giveWay loanId d = .ok ()
    (d.withTables (d.session.tables.changeLoan loanId fun l => { l with version := l.version + 1 })) := by
  unfold giveWay
  rw [Work.bind_of_ok (show isRivalled d = .ok d.hasRival d from rfl), h]
  rfl

/-- When another writer comes in between, a loan is not moved to another state. -/
theorem updateState_rivalled {o : Option Loan} (hd : d.IsHonest) (hr : d.hasRival = true) (h : d.Reads l)
    (hne : state ≠ l.state) : updateState l.loanId state expected d ≠ .ok o d' := by
  intro hu
  obtain ⟨d₁, l', d₂, moved, d₃, hg, hreq, -, hw, -⟩ := updateState_done hd hu
  cases (giveWay_rivalled hr l.loanId).symm.trans hg
  obtain ⟨ht, -, -⟩ := require_ok hreq
  obtain rfl := require_known hreq h.copy
  rcases write_current hw with hs | ⟨row, hrow, hv⟩
  · exact hne hs
  · -- the row has a version more than the copy
    rw [ht] at hrow
    have bumped :
        (d.session.tables.changeLoan l'.loanId fun l => { l with version := l.version + 1 }).loan? l'.loanId =
          some { l' with version := l'.version + 1 } := by
      refine Eq.trans (loan?_changeLoan _ fun _ => rfl) ?_
      rw [if_pos rfl, h.row]
      rfl
    cases bumped.symm.trans hrow
    have same : l'.version + 1 = l'.version := hv
    omega

end Loans

end LoanLedger.Ledger

/-! ## Events -/

namespace LoanLedger.Engine

open Ledger Workflow

variable {d d' : Desk} {g : Engine} {e : Event} {l : Loan} {s : State} {tr : Transition} {c : Decision}

/-- When another writer comes in between, no transition to another state is taken. -/
theorem take_rivalled (hd : d.IsHonest) (hr : d.hasRival = true) (hl : d.Reads l) (hid : l.loanId = e.loanId)
    (hne : tr.to ≠ l.state) : g.take e l.state tr d ≠ .ok c d' := by
  intro h
  obtain ⟨_, d₁, hx, h₁⟩ := Work.bind_ok h
  have near : d.Near d₁ := Keeps.ok hx
  have known := hl.steady ((actions_steady g e l.state tr tr.actions).ok hx)
  obtain ⟨_, d₂, hu, -⟩ := Work.bind_ok h₁
  rw [← hid] at hu
  exact Loans.updateState_rivalled (near.isHonest hd) (near.rival.trans hr) known hne hu

theorem weigh_rivalled (hd : d.IsHonest) (hr : d.hasRival = true)
    (hl : d.session.tables.loan? e.loanId = some l) (hs : g.definition.find? l.state = some s)
    (ht : s.find? e.type = some tr) (hne : tr.to ≠ l.state) : g.weigh e d ≠ .ok (.inr c) d' := by
  intro h
  obtain ⟨l', d₁, hreq, h₁⟩ := Work.bind_ok h
  have near₁ : d.Near d₁ := Keeps.ok hreq
  obtain ⟨known, hid⟩ := Loans.require_reads hreq
  obtain ⟨-, -, row⟩ := Loans.require_ok hreq
  cases (row rfl).symm.trans hl
  obtain ⟨s', d₂, hst, h₂⟩ := Work.bind_ok h₁
  obtain ⟨hs', rfl⟩ := stateOf_ok hst
  cases hs'.symm.trans hs
  obtain ⟨found, d₃, hf, h₃⟩ := Work.bind_ok h₂
  have near₂ : d₂.Near d₃ := Keeps.ok hf
  cases found with
  | some x => cases h₃
  | none =>
    dsimp only at h₃
    rw [ht] at h₃
    obtain ⟨c', h₃, -⟩ := Work.map_ok h₃
    have near := near₁.toBeside.trans near₂.toBeside
    exact take_rivalled (near.isHonest hd) (near.rival.trans hr)
      (known.steady ((AuditLog.findTransition_steady e.key).ok hf)) hid hne h₃

/-- When another writer comes in between, an event that would move its loan to another state changes nothing, and is
answered only if it was applied before. -/
theorem handle_rivalled (g : Engine) (e : Event) (hd : d.IsHonest) (hr : d.hasRival = true)
    (hl : d.store.loan? e.loanId = some l) (hs : g.definition.find? l.state = some s)
    (ht : s.find? e.type = some tr) (hne : tr.to ≠ l.state) :
    ((g.serve (.handle e)).desk d).store = d.store ∧
      ∀ a, (g.serve (.handle e)).answer d = .ok a → a.isDuplicate = true := by
  have none_done : ∀ {d₀ : Desk} {a d₁}, d.Begun d₀ → g.work (.handle e) d₀ ≠ .ok (some a) d₁ := by
    intro d₀ a d₁ hb hw
    obtain ⟨r, d₂, hw, h⟩ := Work.bind_ok hw
    cases r with
    | inl entry => cases h
    | inr c =>
      refine weigh_rivalled (hb.isHonest hd) (hb.rival.trans hr) ?_ hs ht hne hw
      rw [hb.session]
      exact hl
  have settled := handle_settled g e hd
  generalize hx : g.serve (.handle e) d = r at settled
  cases settled with
  | failed h =>
    rw [Work.desk_of_error hx, Work.answer_of_error hx]
    exact ⟨h, nofun⟩
  | nothing hn h =>
    rw [Work.desk_of_ok hx, Work.answer_of_ok hx]
    refine ⟨h, fun a ha => ?_⟩
    cases ha
    exact hn
  | done _ hb hw _ => exact absurd hw (none_done hb)

/-- A loan is moved by the copy of it that the session knows: as long as nobody else changed its row, it is moved
exactly when it is in the expected state; once somebody did, it is refused unless it is to stay in its state, and an
event that would move it changes nothing. -/
theorem loan_compared_and_set (d : Desk) :
    (∀ (loanId state : String) (expected : Option String) (row : Loan), d.IsReady →
      d.session.tables.loan? loanId = some row →
      let l := d.session.copyOf row
      let answer := (Loans.updateState loanId state expected).answer d
      let tables := ((Loans.updateState loanId state expected).desk d).session.tables
      (row.version = l.version →
        ((∃ o, answer = .ok o) ↔ ∀ s ∈ expected, s = l.state) ∧
          ((∃ s ∈ expected, s ≠ l.state) →
            answer = .error (.failure (.optimisticLock loanId expected (some l.state))) ∧
              tables = d.session.tables)) ∧
        (row.version ≠ l.version → (state ≠ l.state ∨ ∃ s ∈ expected, s ≠ l.state) →
          (∃ e a, answer = .error (.failure (.optimisticLock loanId e a))) ∧ tables = d.session.tables)) ∧
    ∀ (g : Engine) (e : Event) (l : Loan) (s : State) (tr : Transition), d.IsHonest → d.hasRival = true →
      d.store.loan? e.loanId = some l → g.definition.find? l.state = some s → s.find? e.type = some tr →
      tr.to ≠ l.state →
      ((g.serve (.handle e)).desk d).store = d.store ∧
        ∀ a, (g.serve (.handle e)).answer d = .ok a → a.isDuplicate = true := by
  refine ⟨fun loanId state expected row hd hrow => ?_, fun g e l s tr => handle_rivalled g e⟩
  have compared := Loans.updateState_compared hd hrow state expected
  rw [← loan?_id hrow] at compared ⊢
  exact ⟨compared.of_current, compared.of_changed⟩

def knocked : State := ⟨"open", [⟨"knock", "closed", []⟩], ""⟩

def doorman : Engine := { still with definition := ⟨"door", 1, "open", [knocked, ⟨"closed", [], ""⟩], "", ""⟩ }

/-- Another writer comes in between. -/
def rivalry : Disturbance := ⟨[], true, none⟩

/-- A session at noon with the loan `row`, which it knows as it was opened. -/
def acquainted (row : Loan) : Desk :=
  { noonWith [row] [] with session := ⟨(noonWith [row] []).store, ⟨[opened], [], []⟩, false⟩ }

theorem loan_compared_and_set_at_noon :
    (∃ o, (Loans.updateState "L1" "closed" (some "open")).answer (acquainted opened) = .ok o) ∧
      (∃ e a, (Loans.updateState "L1" "closed" (some "open")).answer (acquainted { opened with version := 2 }) =
        .error (.failure (.optimisticLock "L1" e a))) ∧
      ((doorman.serve (.handle knock)).desk ((noonWith [opened] []).prepared noon.clock rivalry)).store =
        (noonWith [opened] []).store := by
  have ready (row : Loan) : (acquainted row).IsReady := ⟨⟨rfl, rfl, rfl⟩, rfl⟩
  have current := ((loan_compared_and_set (acquainted opened)).1 "L1" "closed" (some "open") opened (ready _) rfl).1 rfl
  have changed := ((loan_compared_and_set (acquainted { opened with version := 2 })).1 "L1" "closed" (some "open") _
    (ready _) rfl).2 (by decide) (.inl (by decide))
  have event :=
    (loan_compared_and_set ((noonWith [opened] []).prepared noon.clock rivalry)).2 doorman knock opened knocked _
      (fun p n h => nomatch h) rfl rfl rfl rfl (by decide)
  exact ⟨current.1.mpr fun s hs => by cases hs; rfl, changed.1, event.1⟩

/-- A loan whose row was changed is left in its state, and nothing tells of the change. -/
theorem same_state_unchecked :
    let d := { noonWith [opened] [] with session := .of (noonWith [opened] []).store }
    let x := do
      let _ ← Loans.require "L1" true
      Tampering.bumpVersion "L1"
      Loans.updateState "L1" "open" (some "open")
    ∃ d', x d = .ok (some opened) d' ∧ (d'.session.tables.loan? "L1").map (·.version) = some 2 := by
  exact ⟨_, rfl, rfl⟩

end LoanLedger.Engine
