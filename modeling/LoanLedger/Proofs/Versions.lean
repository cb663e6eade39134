import LoanLedger.Proofs.Compared
import LoanLedger.Proofs.LostLookup
import LoanLedger.Proofs.States

/-!
# Versions count changes

* `Tables.changes t loanId` : how many moves of a loan to another state are recorded;
* `Loan.answered l r` : the loan as a call leaves it that is answered by `r`: moved, if that is a move of the loan, and
  as it was otherwise; `Loan.movedTo` : a move to another state makes the next version, one to the same state does not;
* `serve_revised` : so every call leaves every loan, unless another writer comes in between;
* `Told.changes` : a move to another state is recorded as one;
* `versions_count` : so in every run of calls the version of a loan is one more than its changes.
-/

namespace LoanLedger.Ledger

open Engine (Answer Outcome)

/-- Whether the entry records a move of a loan to another state. -/
def Entry.isChange (e : Entry) : Bool :=
  e.isMove && e.text? "from_state" ≠ e.text? "to_state"

/-- How many moves of a loan to another state are recorded. -/
def Tables.changes (t : Tables) (loanId : String) : Nat :=
  (t.logOf loanId).countP (·.isChange)

/-- The loan after a move. The next version is made only if the state is another one. -/
def Loan.movedTo (l : Loan) (state : String) : Loan :=
  if state = l.state then l else { l with state, version := l.version + 1 }

def Loan.answered (l : Loan) : Except Error Answer → Loan
  | .ok (.handled ⟨loanId, _, _, .applied _ state _⟩) => if loanId = l.loanId then l.movedTo state else l
  | _ => l

/-- Every loan that is open stays so, and is changed like this. -/
def Revised (f : Loan → Loan) (t t' : Tables) : Prop :=
  ∀ loanId l, t.loan? loanId = some l → t'.loan? loanId = some (f l)

variable {d d' : Desk} {l : Loan} {state loanId : String} {t t' : Tables} {f : Loan → Loan} {a : Answer}

namespace Loan

theorem movedTo_state (l : Loan) (state : String) : (l.movedTo state).state = state := by
  unfold movedTo
  split
  · next h => exact h.symm
  · rfl

theorem movedTo_version (l : Loan) (state : String) :
    (l.movedTo state).version = l.version + (if state = l.state then 0 else 1 : Nat) := by
  unfold movedTo
  split <;> simp

theorem answered_failed (l : Loan) (e : Error) : l.answered (.error e) = l := rfl

theorem answered_duplicate (h : a.isDuplicate = true) (l : Loan) : l.answered (.ok a) = l := by
  unfold answered
  split
  · next hr =>
    cases hr
    cases h
  · rfl

theorem answered_applied (e : Event) (fromState state : String) (rs : List Engine.ActionResult) (l : Loan) :
    l.answered (.ok (.handled (Outcome.of e (.applied fromState state rs)))) =
      if e.loanId = l.loanId then l.movedTo state else l := rfl

/-- A loan has the next version just when a call leaves it in another state. -/
theorem answered_version (l : Loan) (r : Except Error Answer) :
    (l.answered r).version = l.version + (if (l.answered r).state = l.state then 0 else 1 : Nat) := by
  unfold answered
  split
  · split
    · rw [movedTo_version, movedTo_state]
    · simp
  · simp

end Loan

namespace Revised

theorem of_loans (h : t'.loans = t.loans) (hf : ∀ l, f l = l) : Revised f t t' := by
  intro loanId l hl
  rw [loan?_of_loans h, hl, hf]

theorem before (h : Revised f t t') {t₀ : Tables} (hl : t.loans = t₀.loans) : Revised f t₀ t' := by
  intro loanId l hrow
  exact h loanId l (by rwa [loan?_of_loans hl])

theorem after (h : Revised f t t') {t₁ : Tables} (hl : t₁.loans = t'.loans) : Revised f t t₁ := by
  intro loanId l hrow
  rw [loan?_of_loans hl]
  exact h loanId l hrow

end Revised

/-! ## Moving a loan -/

namespace Loans

theorem giveWay_unrivalled (h : d.hasRival = false) (loanId : String) : giveWay loanId d = .ok () d := by
  unfold giveWay
  rw [Work.bind_of_ok (show isRivalled d = .ok d.hasRival d from rfl), h]
  rfl

/-- Unless another writer comes in between, a loan that the session knows as its row says is moved. -/
theorem updateState_unrivalled {expected : Option String} {o : Option Loan} (hd : d.IsHonest) (hr : d.hasRival = false)
    (h : d.Reads l) (hu : updateState l.loanId state expected d = .ok o d') :
    Revised (fun row => if l.loanId = row.loanId then row.movedTo state else row) d.session.tables
      d'.session.tables := by
  obtain ⟨d₁, l', d₂, moved, d₃, hg, hreq, -, hw, hs₃⟩ := updateState_done hd hu
  cases (giveWay_unrivalled hr l.loanId).symm.trans hg
  obtain ⟨ht, -, -⟩ := require_ok hreq
  obtain rfl := require_known hreq h.copy
  have ht : d₂.session.tables = d.session.tables := ht
  intro loanId row hrow
  dsimp only
  rw [loan?_id hrow, hs₃]
  by_cases ho : l'.loanId = loanId
  · subst ho
    cases h.row.symm.trans hrow
    rw [if_pos rfl, Loan.movedTo]
    rcases write_ok hw with ⟨hs, hw⟩ | ⟨hs, hw⟩
    · rw [hw, ht, hrow, if_pos hs]
    · rw [hw, ht, if_neg hs, loan?_changeLoan, if_pos rfl, hrow]
      · rfl
      · exact fun _ => rfl
  · rw [if_neg ho]
    rcases write_ok hw with ⟨-, hw⟩ | ⟨-, hw⟩
    · rw [hw, ht, hrow]
    · rw [hw, ht, loan?_changeLoan, if_neg (Ne.symm ho), hrow]
      exact fun _ => rfl

end Loans

end LoanLedger.Ledger

namespace LoanLedger.Engine

open Ledger Workflow

variable {d d' : Desk} {g : Engine} {c : Call} {e : Event} {l : Loan} {tr : Transition} {a : Answer} {t t' : Tables}
  {o : Decision} {fromState state loanId : String} {ts : List Turn}

/-! ## Calls -/

theorem take_revised {rs : List ActionResult} (hd : d.IsHonest) (hr : d.hasRival = false) (hl : d.Reads l)
    (hid : l.loanId = e.loanId) (h : g.take e l.state tr d = .ok (.applied fromState state rs) d') :
    Revised (fun row => if e.loanId = row.loanId then row.movedTo state else row) d.session.tables
      d'.session.tables := by
  obtain ⟨_, d₁, hacts, h₁⟩ := Work.bind_ok h
  have near₁ : d.Near d₁ := Keeps.ok hacts
  have steady := (actions_steady g e l.state tr tr.actions).ok hacts
  obtain ⟨_, d₂, hu, h₂⟩ := Work.bind_ok h₁
  obtain ⟨o₂, d₃, ha, h₃⟩ := Work.bind_ok h₂
  obtain ⟨_, d₄, hc, h₄⟩ := Work.bind_ok h₃
  cases h₄
  rw [← hid] at hu ha ⊢
  have revised := Loans.updateState_unrivalled (near₁.isHonest hd) (near₁.rival.trans hr) (hl.steady steady) hu
  have logged := (AuditLog.append_steady l.loanId (transitionRecord e l.state tr.to)).ok ha
  rw [checkCancelled_books hc]
  exact (revised.before steady.rows).after logged.rows

theorem weigh_revised {rs : List ActionResult} (hd : d.IsHonest) (hr : d.hasRival = false)
    (h : g.weigh e d = .ok (.inr (.applied fromState state rs)) d') :
    Revised (fun row => if e.loanId = row.loanId then row.movedTo state else row) d.session.tables
      d'.session.tables := by
  obtain ⟨l, d₁, hreq, h₁⟩ := Work.bind_ok h
  have near₁ : d.Near d₁ := Keeps.ok hreq
  obtain ⟨known, hid⟩ := Loans.require_reads hreq
  obtain ⟨ht₁, -, -⟩ := Loans.require_ok hreq
  obtain ⟨s, d₂, hs, h₂⟩ := Work.bind_ok h₁
  obtain ⟨-, rfl⟩ := stateOf_ok hs
  obtain ⟨found, d₃, hf, h₃⟩ := Work.bind_ok h₂
  have near : d.Near d₃ := Frame.trans near₁ (Keeps.ok hf)
  have ht₃ : d₃.session.tables = d.session.tables := by rw [AuditLog.findTransition_ok hf, ht₁]
  cases found with
  | some x => cases h₃
  | none =>
    dsimp only at h₃
    cases htr : s.find? e.type with
    | none =>
      rw [htr] at h₃
      obtain ⟨c, h₄, hc⟩ := Work.map_ok h₃
      cases hc
      cases (ignore_ok (near.isHonest hd) h₄).1
    | some tr =>
      rw [htr] at h₃
      obtain ⟨c, h₄, hc⟩ := Work.map_ok h₃
      cases hc
      rw [← ht₃]
      exact take_revised (near.isHonest hd) (near.rival.trans hr)
        (known.steady ((AuditLog.findTransition_steady e.key).ok hf)) hid h₄

theorem work_revised (hd : d.IsHonest) (hr : d.hasRival = false) (h : g.work c d = .ok (some a) d') :
    Revised (·.answered (.ok a)) d.session.tables d'.session.tables := by
  cases work_told hd h with
  | opened _ ha =>
    intro loanId l hl
    rw [ha.loan?, loan?_added, hl]
    rfl
  | ignored _ _ _ ha => exact .of_loans (Appended.loans ha) fun _ => rfl
  | applied =>
    obtain ⟨r, d₁, hw, h₁⟩ := Work.bind_ok h
    cases r with
    | inl entry => cases h₁
    | inr o =>
      cases h₁
      exact weigh_revised hd hr hw
  | paid _ hp => exact .of_loans hp.loans fun _ => rfl

/-- Every call leaves every loan as it is answered, unless another writer comes in between. -/
theorem serve_revised (g : Engine) (c : Call) (hd : d.IsHonest) (hr : d.hasRival = false) :
    Revised (·.answered ((g.serve c).answer d)) d.store ((g.serve c).desk d).store := by
  have settled := serve_settled g c hd
  rw [Work.answer]
  generalize hx : g.serve c d = r at settled
  cases settled with
  | failed hs =>
    rw [Work.desk_of_error hx, hs]
    exact .of_loans rfl fun l => l.answered_failed _
  | nothing hn hs =>
    rw [Work.desk_of_ok hx, hs]
    exact .of_loans rfl (Loan.answered_duplicate hn)
  | done _ hb hw hs =>
    rw [Work.desk_of_ok hx, hs]
    have revised := work_revised (hb.isHonest hd) (hb.rival.trans hr) hw
    rwa [hb.session] at revised

/-! ## Changes -/

theorem isMove_of_isChange (x : Entry) (h : x.isChange = true) : x.isMove = true :=
  (Bool.and_eq_true_iff.mp h).1

theorem isChange_transition {x : Entry} (h : Appended loanId (transitionRecord e fromState state) t x t') :
    x.isChange = decide (fromState ≠ state) := by
  obtain ⟨hfrom, hto⟩ := transition_appended h
  rw [Entry.isChange, h.isMove, hfrom, hto]
  simp [transitionRecord]

theorem changes_appended {r : AuditRecord} {x : Entry} (h : Appended loanId r t x t') (other : String) :
    t'.changes other = t.changes other + if loanId = other ∧ x.isChange then 1 else 0 :=
  countP_appended _ h

theorem changes_remarked (h : Remarked loanId t t') (other : String) : t'.changes other = t.changes other :=
  countP_remarked isMove_of_isChange h other

/-- Only moves of a loan to another state are recorded as such. -/
theorem changes_plain {r : AuditRecord} {x : Entry} (h : Appended loanId r t x t') (hr : r.event ≠ .stateTransition)
    (other : String) : t'.changes other = t.changes other := by
  rw [changes_appended h, if_neg, Nat.add_zero]
  intro hh
  have move := isMove_of_isChange x hh.2
  rw [h.isMove] at move
  exact hr (by simpa using move)

/-- A call that leaves a loan in another state records that. -/
theorem Told.changes (h : g.Told t c a t') (hl : t.loan? loanId = some l) :
    t'.changes loanId = t.changes loanId + if (l.answered (.ok a)).state = l.state then 0 else 1 := by
  cases h with
  | opened _ ha => exact (changes_plain ha nofun loanId).trans (if_pos rfl ▸ rfl)
  | ignored _ _ _ ha => exact (changes_plain ha nofun loanId).trans (if_pos rfl ▸ rfl)
  | @applied e _ _ tr _ _ _ _ _ hrow _ _ hr hm ha =>
    have same := (congrArg (List.countP _) (logOf_of_entries hm.entries loanId)).trans (changes_remarked hr loanId)
    rw [changes_appended ha, isChange_transition ha, Loan.answered_applied, loan?_id hl]
    refine congrArg₂ (· + ·) same ?_
    by_cases ho : e.loanId = loanId
    · subst ho
      cases hrow.symm.trans hl
      rw [if_pos rfl, Loan.movedTo_state]
      by_cases hs : l.state = tr.to
      · simp [hs]
      · simp [hs, Ne.symm hs]
    · simp [ho]
  | paid _ hr => exact (changes_remarked hr loanId).trans (if_pos rfl ▸ rfl)

/-! ## Runs -/

/-- The version of every loan that is open is one more than its changes, and logs explain loans. -/
structure Versioned (t : Tables) : Prop where
  explains : Explains t
  version : ∀ loanId l, t.loan? loanId = some l → l.version = 1 + t.changes loanId

theorem versioned_empty : Versioned .empty := ⟨explains_empty, fun _ _ hl => nomatch hl⟩

/-- A loan that a call opens has its first version, and no change is recorded of it. -/
theorem Told.first_version (h : g.Told t c a t') (ht : Explains t) (hn : t.loan? loanId = none)
    (hl : t'.loan? loanId = some l) : l.version = 1 ∧ t'.changes loanId = 0 := by
  cases h with
  | opened _ ha =>
    rw [ha.loan?, loan?_added, hn, Option.none_or] at hl
    split at hl
    · cases hl
      have empty : t.changes loanId = 0 := by rw [Tables.changes, ht.noRow hn, List.countP_nil]
      exact ⟨rfl, (changes_plain ha nofun loanId).trans empty⟩
    · cases hl
  | ignored _ _ _ ha => cases (ha.loan? loanId ▸ hl).symm.trans hn
  | @applied e _ _ _ _ _ _ _ _ hrow _ _ hr hm ha =>
    rw [ha.loan?] at hl
    by_cases ho : loanId = e.loanId
    · cases (ho ▸ hn).symm.trans hrow
    · rw [hm.other ho, loan?_of_loans hr.loans, hn] at hl
      cases hl
  | paid _ hr => cases (loan?_of_loans hr.loans loanId ▸ hl).symm.trans hn

/-- Every call keeps that, unless another writer comes in between. -/
theorem serve_versioned (g : Engine) (c : Call) (hd : d.IsHonest) (hr : d.hasRival = false)
    (h : Versioned d.store) : Versioned ((g.serve c).desk d).store := by
  have revised := serve_revised g c hd hr
  have served := serve_served g c hd
  rw [Work.answer] at revised
  generalize hx : g.serve c d = r at revised served
  cases served with
  | failed hs =>
    rw [Work.desk_of_error hx, hs]
    exact h
  | duplicate _ hs =>
    rw [Work.desk_of_ok hx, hs]
    exact h
  | told _ ht =>
    rw [Work.desk_of_ok hx] at revised ⊢
    refine ⟨h.explains.told ht, fun loanId l hl => ?_⟩
    cases hrow : d.store.loan? loanId with
    | none =>
      obtain ⟨version, changes⟩ := ht.first_version h.explains hrow hl
      rw [version, changes]
      rfl
    | some l₀ =>
      cases (revised loanId l₀ hrow).symm.trans hl
      dsimp only
      rw [Loan.answered_version, h.version loanId l₀ hrow, ht.changes hrow, Int.natCast_add, Int.add_assoc]

theorem after_versioned (hts : ∀ y ∈ ts, y.IsCall ∧ y.disturbance.hasRival = false) :
    ∀ {d : Desk}, Versioned d.store → Versioned (d.after ts).store := by
  induction ts with
  | nil => exact id
  | cons y ts ih =>
    intro d h
    refine ih (fun y hy => hts y (List.mem_cons_of_mem _ hy)) (d := d.turn y) ?_
    obtain ⟨⟨hz⟩, hr⟩ := hts y List.mem_cons_self
    rw [turn_call]
    exact serve_versioned (d := d.prepared _ _) _ _ hz hr h

/-- Versions count changes. In every run of calls from an empty ledger, disturbed in any way but by another writer, the
version of every loan is one more than the number of its recorded moves to another state. Every further call leaves it
as it is answered: a move to another state makes the next version, and everything else (a move to the same state, an
event that is ignored or was applied before, a failure, a payment) leaves the row alone. -/
theorem versions_count (d : Desk) (ts : List Turn) (hd : d.store = .empty)
    (hts : ∀ y ∈ ts, y.IsCall ∧ y.disturbance.hasRival = false) :
    ∀ l ∈ (d.after ts).store.loans, l.version = 1 + (d.after ts).store.changes l.loanId ∧
      ∀ (g : Engine) (c : Call) (clock : Clock) (z : Disturbance), z.IsHonest → z.hasRival = false →
        ((g.serve c).desk ((d.after ts).prepared clock z)).store.loan? l.loanId =
          some (l.answered ((g.serve c).answer ((d.after ts).prepared clock z))) := by
  intro l hl
  have rows : OneRow (d.after ts).store :=
    run_keeps (fun _ hP ht => ht.oneRow hP) (fun y hy => (hts y hy).1.any) (hd ▸ fun _ hl => nomatch hl)
  have versioned := after_versioned hts (hd ▸ versioned_empty)
  refine ⟨versioned.version _ l (rows l hl), fun g c clock z hz hr => ?_⟩
  exact serve_revised (d := (d.after ts).prepared clock z) g c hz hr _ l (rows l hl)

/-- A loan that was opened and shut has its second version, and another knock makes none as it was applied before. -/
theorem versions_count_at_noon :
    noon.store = .empty ∧ (∀ y ∈ shutOnce, y.IsCall ∧ y.disturbance.hasRival = false) ∧
      ∃ l ∈ (noon.after shutOnce).store.loans, l.loanId = "L1" ∧ l.version = 2 ∧
        l.version = 1 + (noon.after shutOnce).store.changes l.loanId ∧
        ((revolving.serve (.handle knock)).desk ((noon.after shutOnce).prepared noon.clock .none)).store.loan? "L1" =
          some (l.answered
            ((revolving.serve (.handle knock)).answer ((noon.after shutOnce).prepared noon.clock .none))) := by
  have calls : ∀ y ∈ shutOnce, y.IsCall ∧ y.disturbance.hasRival = false := by
    intro y hy
    simp only [shutOnce, List.mem_cons, List.not_mem_nil, or_false] at hy
    rcases hy with rfl | rfl <;> exact ⟨.call Disturbance.none_isHonest, rfl⟩
  have version : ((noon.after shutOnce).store.loan? "L1").map (·.version) = some 2 := by decide +kernel
  obtain ⟨l, hl, hv⟩ := Option.map_eq_some_iff.mp version
  have mem := List.mem_of_find?_eq_some hl
  have hid := loan?_id hl
  obtain ⟨count, answered⟩ := versions_count noon shutOnce rfl calls l mem
  refine ⟨rfl, calls, l, mem, hid, hv, count, ?_⟩
  rw [← hid]
  exact answered revolving (.handle knock) noon.clock .none Disturbance.none_isHonest rfl

end LoanLedger.Engine
