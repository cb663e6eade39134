import LoanLedger.Proofs.Appending

/-!
# What operations do to the rows

* `SameBooks loanId t t'` : loans, entries and counters are the same; requests may differ, but only the
  loan can have got its first one;
* `Remarked loanId t t'` : besides, entries were added to the log of a loan that neither open nor move it;
* `Moved loanId state t t'` : the row of a loan changed, and has the state now;
* `Loans.updateState_ok`, `append_remarked` : that is what the operations do, however they were disturbed.
-/

namespace LoanLedger.Ledger

variable {α : Type} {d d' : Desk} {t t' t₁ t₂ : Tables} {loanId : String}

/-! ## Rows that stay -/

/-- Loans, entries and counters are the same, and requests are those of a loan or of loans that had some. -/
structure SameBooks (loanId : String) (t t' : Tables) : Prop where
  loans : t'.loans = t.loans
  entries : t'.entries = t.entries
  counters : t'.counters = t.counters
  requests : ∀ x ∈ t'.disbursements, x.loanId = loanId ∨ ∃ y ∈ t.disbursements, y.loanId = x.loanId

theorem SameBooks.refl (loanId : String) (t : Tables) : SameBooks loanId t t :=
  ⟨rfl, rfl, rfl, fun x hx => .inr ⟨x, hx, rfl⟩⟩

theorem SameBooks.trans (h : SameBooks loanId t t₁) (h' : SameBooks loanId t₁ t₂) : SameBooks loanId t t₂ where
  loans := h'.loans.trans h.loans
  entries := h'.entries.trans h.entries
  counters := h'.counters.trans h.counters
  requests x hx := by
    rcases h'.requests x hx with hl | ⟨y, hy, hl⟩
    · exact .inl hl
    · rw [← hl]
      exact h.requests y hy

theorem SameBooks.of_session (h : d'.session = d.session) :
    SameBooks loanId d.session.tables d'.session.tables := by
  rw [h]
  exact .refl loanId _

/-- The session has the same loans, entries and counters, and requests of a loan or of such as had some. -/
def Desk.SameBooks (loanId : String) (d d' : Desk) : Prop :=
  Ledger.SameBooks loanId d.session.tables d'.session.tables

instance : Frame (Desk.SameBooks loanId) where
  refl _ := .refl loanId _
  trans h h' := h.trans h'
  log _ _ := .refl loanId _
  pass _ _ := .refl loanId _
  know _ _ := .refl loanId _
  broken _ := .refl loanId _
  check _ _ _ := .refl loanId _
  back _ := .refl loanId _

instance : Issuing (Desk.SameBooks loanId) where
  freshId _ := .refl loanId _

theorem change_keeps {R : Desk → Desk → Prop} [Frame R] {g : Tables → Except Error Tables}
    (hg : ∀ d t', g d.session.tables = .ok t' → R d { d with session := { d.session with tables := t' } }) :
    Keeps R (change g) := by
  refine .recover (.bind inferInstance fun _ => ⟨fun d => ?_⟩) fun e => inferInstance
  rw [Work.desk_bind_of_ok (Work.session_run d)]
  cases ht : g d.session.tables with
  | error e => exact Frame.refl d
  | ok t' => exact hg d t' ht

namespace Disbursements

theorem recalled_id (k : Known) (x : Disbursement) : (recalled k x).id = x.id := by
  unfold recalled
  cases h : k.disbursements.find? (·.id = x.id) with
  | none => rfl
  | some y => simpa using List.find?_some h

/-- A request is stored with its times in UTC, and as it is otherwise. -/
theorem stored?_ok {x row : Disbursement} (h : x.stored? = .ok row) :
    ∃ createdAt paidAt, Column.keepTime? x.createdAt = .ok createdAt ∧
      x.paidAt.mapM Column.keepTime? = .ok paidAt ∧
      row = { x with createdAt, paidAt } := by
  simp only [Disbursement.stored?, bind, Except.bind] at h
  split at h
  · cases h
  · next createdAt hc =>
    split at h
    · cases h
    · next paidAt hp =>
      cases h
      exact ⟨createdAt, paidAt, hc, hp, rfl⟩

theorem stored?_id {x row : Disbursement} (h : x.stored? = .ok row) : row.id = x.id := by
  obtain ⟨_, _, -, -, rfl⟩ := stored?_ok h
  rfl

end Disbursements

theorem stored?_loanId {x row : Disbursement} (h : x.stored? = .ok row) : row.loanId = x.loanId := by
  obtain ⟨_, _, -, -, rfl⟩ := Disbursements.stored?_ok h
  rfl

theorem add_keeps {x : Disbursement} (hx : x.loanId = loanId) :
    Keeps (Desk.SameBooks loanId) (Disbursements.add x) := by
  unfold Disbursements.add
  refine .bind (change_keeps fun d t' ht => ?_) fun _ => inferInstance
  cases hs : x.stored? with
  | error e => rw [hs] at ht; cases ht
  | ok row =>
    rw [hs] at ht
    dsimp only at ht
    cases hadd : d.session.tables.addDisbursement? row with
    | none => rw [hadd] at ht; cases ht
    | some t'' =>
      rw [hadd] at ht
      cases ht
      obtain ⟨-, rfl⟩ := Tables.addDisbursement?_eq_some.mp hadd
      refine ⟨rfl, rfl, rfl, fun y hy => ?_⟩
      rcases List.mem_append.mp hy with hy | hy
      · exact .inr ⟨y, hy, rfl⟩
      · rw [List.mem_singleton.mp hy]
        exact .inl ((stored?_loanId hs).trans hx)

instance (kind : Tranche) : Keeps (Desk.SameBooks loanId) (Disbursements.request loanId kind) :=
  Disbursements.request_holds (fun _ => add_keeps) kind

instance (x : Disbursement) (paidAt : Calendar.Timestamp) :
    Keeps (Desk.SameBooks loanId) (Disbursements.pay x paidAt) := by
  unfold Disbursements.pay
  refine .bind (change_keeps fun d t' ht => ?_) fun _ => inferInstance
  cases hk : Column.keepTime? paidAt with
  | error e => rw [hk] at ht; cases ht
  | ok time =>
    rw [hk] at ht
    cases ht
    refine ⟨rfl, rfl, rfl, fun y hy => ?_⟩
    obtain ⟨z, hz, rfl⟩ := List.mem_map.mp hy
    exact .inr ⟨z, hz, by split <;> rfl⟩

/-! ## Entries that neither open nor move a loan -/

/-- What is recorded neither opens nor moves a loan. -/
structure AuditRecord.IsPlain (r : AuditRecord) : Prop where
  isJson : r.IsJson
  notOpening : r.event ≠ .loanOpened
  notMoving : r.event ≠ .stateTransition
  noKey : r.key = none

/-- Entries were added to the log of a loan that neither open nor move it, and loans are the same. -/
inductive Remarked (loanId : String) (t : Tables) : Tables → Prop where
  | same {t' : Tables} : SameBooks loanId t t' → Remarked loanId t t'
  | append {t₁ t₂ t' : Tables} {r : AuditRecord} {e : Entry} : Remarked loanId t t₁ → r.IsPlain →
    Appended loanId r t₁ e t₂ → SameBooks loanId t₂ t' → Remarked loanId t t'

theorem Remarked.trans (h : Remarked loanId t t₁) (h' : Remarked loanId t₁ t₂) : Remarked loanId t t₂ := by
  induction h' with
  | same hs =>
    cases h with
    | same hs' => exact .same (hs'.trans hs)
    | append hn hr ha hs' => exact .append hn hr ha (hs'.trans hs)
  | append _ hr ha hs ih => exact .append ih hr ha hs

theorem Remarked.loans (h : Remarked loanId t t') : t'.loans = t.loans := by
  induction h with
  | same hs => exact hs.loans
  | append _ _ ha hs ih => rw [hs.loans, ha.tables, Tables.logged, Tables.counted_loans, ih]

theorem Appended.entries {r : AuditRecord} {e : Entry} (h : Appended loanId r t e t') :
    t'.entries = t.entries ++ [e] := by
  rw [h.tables, Tables.logged]

theorem Appended.loans {r : AuditRecord} {e : Entry} (h : Appended loanId r t e t') : t'.loans = t.loans := by
  rw [h.tables, Tables.logged, Tables.counted_loans]

theorem Appended.disbursements {r : AuditRecord} {e : Entry} (h : Appended loanId r t e t') :
    t'.disbursements = t.disbursements := by
  rw [h.tables, Tables.logged, Tables.counted_disbursements]

theorem loan?_of_loans (h : t'.loans = t.loans) (loanId : String) : t'.loan? loanId = t.loan? loanId := by
  rw [Tables.loan?, Tables.loan?, h]

theorem Appended.loan? {r : AuditRecord} {e : Entry} (h : Appended loanId r t e t') (other : String) :
    t'.loan? other = t.loan? other :=
  loan?_of_loans h.loans other

theorem Remarked.requests (h : Remarked loanId t t') :
    ∀ x ∈ t'.disbursements, x.loanId = loanId ∨ ∃ y ∈ t.disbursements, y.loanId = x.loanId := by
  induction h with
  | same hs => exact hs.requests
  | append _ _ ha hs ih =>
    intro x hx
    rcases hs.requests x hx with hl | ⟨y, hy, hl⟩
    · exact .inl hl
    · rw [ha.disbursements] at hy
      rw [← hl]
      exact ih y hy

theorem Appended.entryByKey? {r : AuditRecord} {e : Entry} (h : Appended loanId r t e t') (key : String) :
    t'.entryByKey? key = (t.entryByKey? key).or (if r.key = some key then some e else none) := by
  rw [Tables.entryByKey?, h.entries, List.find?_append, ← h.key]
  by_cases hk : e.key = some key <;> simp [hk, Tables.entryByKey?]

theorem entryByKey?_of_entries (h : t'.entries = t.entries) (key : String) :
    t'.entryByKey? key = t.entryByKey? key := by
  rw [Tables.entryByKey?, Tables.entryByKey?, h]

theorem Remarked.entryByKey? (h : Remarked loanId t t') (key : String) :
    t'.entryByKey? key = t.entryByKey? key := by
  induction h with
  | same hs => exact entryByKey?_of_entries hs.entries key
  | append _ hp ha hs ih =>
    rw [entryByKey?_of_entries hs.entries, ha.entryByKey?, hp.noKey, if_neg nofun, Option.or_none, ih]

theorem append_remarked {r : AuditRecord} {o : Option Entry} (hr : r.IsPlain)
    (h : AuditLog.append loanId r d = .ok o d') : Remarked loanId d.session.tables d'.session.tables := by
  rcases AuditLog.append_ok hr.isJson h with ⟨-, hs, -⟩ | ⟨e, -, ha⟩
  · exact .same (.of_session hs)
  · exact .append (.same (.refl loanId _)) hr ha (.refl loanId _)

/-! ## Loans that move -/

structure Moved (loanId state : String) (t t' : Tables) : Prop where
  row : ∃ change : Loan → Loan, (∀ l, (change l).loanId = l.loanId) ∧
    (∀ l, t.loan? loanId = some l → (change l).state = state) ∧ t' = t.changeLoan loanId change

theorem loan?_id {l : Loan} (h : t.loan? loanId = some l) : l.loanId = loanId := by
  simpa using List.find?_some h

theorem loan?_added (t : Tables) (l : Loan) (other : String) :
    Tables.loan? { t with loans := t.loans ++ [l] } other =
      (t.loan? other).or (if other = l.loanId then some l else none) := by
  rw [Tables.loan?, List.find?_append]
  by_cases ho : other = l.loanId
  · simp [ho, Tables.loan?]
  · simp [ho, Ne.symm ho, Tables.loan?]

theorem loan?_changeLoan (t : Tables) {loanId other : String} {change : Loan → Loan}
    (hc : ∀ l, (change l).loanId = l.loanId) :
    (t.changeLoan loanId change).loan? other =
      if other = loanId then (t.loan? other).map change else t.loan? other := by
  have hp : ((fun l : Loan => decide (l.loanId = other)) ∘ fun l => if l.loanId = loanId then change l else l) =
      fun l => decide (l.loanId = other) := by
    funext l
    by_cases hl : l.loanId = loanId <;> simp [hl, hc]
  have hf : (t.changeLoan loanId change).loan? other =
      (t.loan? other).map fun l => if l.loanId = loanId then change l else l := by
    unfold Tables.loan? Tables.changeLoan
    rw [List.find?_map, hp]
  rw [hf]
  cases h : t.loan? other with
  | none => simp
  | some l =>
    have hl := loan?_id h
    split <;> simp_all

theorem changeLoan_changeLoan (t : Tables) (loanId : String) {f g : Loan → Loan}
    (hf : ∀ l, (f l).loanId = l.loanId) :
    (t.changeLoan loanId f).changeLoan loanId g = t.changeLoan loanId fun l => g (f l) := by
  unfold Tables.changeLoan
  rw [List.map_map]
  congr 2
  funext l
  by_cases hl : l.loanId = loanId <;> simp [hl, hf]

theorem changeLoan_id (t : Tables) (loanId : String) : t.changeLoan loanId (fun l => l) = t := by
  simp [Tables.changeLoan]

namespace Moved

variable {state : String}

theorem other (h : Moved loanId state t t') {other : String} (ho : other ≠ loanId) :
    t'.loan? other = t.loan? other := by
  obtain ⟨change, hc, -, rfl⟩ := h.row
  rw [loan?_changeLoan t hc, if_neg ho]

theorem loan (h : Moved loanId state t t') {l : Loan} (hl : t.loan? loanId = some l) :
    ∃ l', t'.loan? loanId = some l' ∧ l'.state = state := by
  obtain ⟨change, hc, hs, rfl⟩ := h.row
  rw [loan?_changeLoan t hc, if_pos rfl, hl]
  exact ⟨change l, rfl, hs l hl⟩

theorem entries (h : Moved loanId state t t') : t'.entries = t.entries := by
  obtain ⟨change, -, -, rfl⟩ := h.row
  rfl

theorem counters (h : Moved loanId state t t') : t'.counters = t.counters := by
  obtain ⟨change, -, -, rfl⟩ := h.row
  rfl

theorem disbursements (h : Moved loanId state t t') : t'.disbursements = t.disbursements := by
  obtain ⟨change, -, -, rfl⟩ := h.row
  rfl

end Moved

namespace Loans

theorem get_ok {fresh : Bool} {o : Option Loan} (h : get loanId fresh d = .ok o d') :
    d'.session.tables = d.session.tables ∧
      ∀ l, o = some l → l.loanId = loanId ∧ (fresh = true → d.session.tables.loan? loanId = some l) := by
  rcases call_ok h with h | ⟨-, rfl, rfl⟩
  · obtain ⟨found, d₁, hq, h₁⟩ := Work.bind_ok (guarded_ok h)
    obtain ⟨rfl, hs⟩ := query_ok hq
    have hs : d₁.session = d.session := hs
    cases hl : d.session.tables.loan? loanId with
    | none =>
      rw [show (d.passed .getLoan).session.tables.loan? loanId = none from hl] at h₁
      cases h₁
      exact ⟨congrArg Session.tables hs, fun l hl => nomatch hl⟩
    | some row =>
      rw [show (d.passed .getLoan).session.tables.loan? loanId = some row from hl] at h₁
      cases h₁
      refine ⟨show d₁.session.tables = _ from congrArg Session.tables hs, fun l ho => ?_⟩
      cases ho
      cases fresh with
      | true => exact ⟨loan?_id hl, fun _ => rfl⟩
      | false =>
        refine ⟨?_, nofun⟩
        cases hk : d₁.session.known.loans.find? (·.loanId = loanId) with
        | none => simpa [hk] using loan?_id hl
        | some l => simpa [hk] using List.find?_some hk
  · exact ⟨rfl, fun l hl => nomatch hl⟩

theorem require_ok {fresh : Bool} {l : Loan} (h : require loanId fresh d = .ok l d') :
    d'.session.tables = d.session.tables ∧ l.loanId = loanId ∧
      (fresh = true → d.session.tables.loan? loanId = some l) := by
  obtain ⟨o, d₁, hg, h₁⟩ := Work.bind_ok h
  obtain ⟨hs, hl⟩ := get_ok hg
  cases o with
  | none => cases h₁
  | some l' =>
    cases h₁
    exact ⟨hs, hl l rfl⟩

theorem giveWay_ok {u : Unit} (h : giveWay loanId d = .ok u d') :
    ∃ change : Loan → Loan, (∀ l, (change l).loanId = l.loanId ∧ (change l).state = l.state) ∧
      d'.session.tables = d.session.tables.changeLoan loanId change := by
  obtain ⟨r, d₁, hr, h₁⟩ := Work.bind_ok h
  cases hr
  cases hd : d.hasRival with
  | true =>
    rw [hd] at h₁
    cases h₁
    exact ⟨fun l => { l with version := l.version + 1 }, fun l => ⟨rfl, rfl⟩, rfl⟩
  | false =>
    rw [hd] at h₁
    cases h₁
    exact ⟨fun l => l, fun l => ⟨rfl, rfl⟩, (changeLoan_id _ _).symm⟩

theorem write_ok {l moved : Loan} {state : String} (h : write l state d = .ok moved d') :
    (state = l.state ∧ d'.session.tables = d.session.tables) ∨
      state ≠ l.state ∧ d'.session.tables = d.session.tables.changeLoan l.loanId fun row =>
        { row with state, version := l.version + 1 } := by
  unfold write at h
  split at h
  · next hs =>
    cases h
    exact .inl ⟨hs, rfl⟩
  · next hs =>
    obtain ⟨_, d₁, hc, h₁⟩ := Work.bind_ok h
    obtain ⟨_, d₂, hk, h₂⟩ := Work.bind_ok h₁
    cases h₂
    obtain ⟨t, ht, hd⟩ := change_ok hc
    split at ht
    · cases ht
      exact .inr ⟨hs, by rw [know_ok hk, hd]⟩
    · cases ht

/-- What moving a loan did: another writer may have come first, then the copy of the loan, in the expected state, was
written. -/
theorem updateState_done {state : String} {expected : Option String} {o : Option Loan} (hd : d.IsHonest)
    (h : updateState loanId state expected d = .ok o d') :
    ∃ d₁ l d₂ moved d₃, giveWay loanId d = .ok () d₁ ∧
      require loanId false (d₁.passed .updateState) = .ok l d₂ ∧
      (∀ s ∈ expected, s = l.state) ∧ write l state d₂ = .ok moved d₃ ∧ d'.session = d₃.session := by
  obtain ⟨_, d₁, hg, h₁⟩ := Work.bind_ok h
  have near : d.Near d₁ := Keeps.ok hg
  rcases call_ok h₁ with h₂ | ⟨hm, -, -⟩
  · obtain ⟨l, d₂, hr, h₃⟩ := Work.bind_ok h₂
    split at h₃
    · obtain ⟨_, _, ht, -⟩ := Work.bind_ok h₃
      cases ht
    · next hexp =>
      obtain ⟨moved, d₃, hw, h₄⟩ := Work.bind_ok h₃
      obtain ⟨_, d₄, he, h₅⟩ := Work.bind_ok h₄
      cases h₅
      rcases Work.recover_ok (guarded_ok hw) with hw | ⟨e, d₅, -, hh⟩
      · exact ⟨d₁, l, d₂, moved, d₃, hg, hr, by cases expected <;> simp_all, hw, emit_ok he⟩
      · split at hh
        · obtain ⟨_, _, -, hh⟩ := Work.bind_ok hh
          cases hh
        · cases hh
  · exact absurd hm ((near.isHonest hd).not_missed rfl)

theorem updateState_ok {state fromState : String} {o : Option Loan} (hd : d.IsHonest)
    (hl : ∀ l, d.session.tables.loan? loanId = some l → l.state = fromState)
    (h : updateState loanId state (some fromState) d = .ok o d') :
    Moved loanId state d.session.tables d'.session.tables := by
  obtain ⟨d₁, l, d₂, moved, d₃, hg, hr, hexp, hw, hs₃⟩ := updateState_done hd h
  obtain ⟨bump, hb, ht₁⟩ := giveWay_ok hg
  obtain ⟨ht₂, hid, -⟩ := require_ok hr
  have ht₂ : d₂.session.tables = d₁.session.tables := ht₂
  have hfrom : fromState = l.state := hexp fromState rfl
  rw [hs₃]
  rcases write_ok hw with ⟨hs, ht⟩ | ⟨-, ht⟩
  · refine ⟨bump, fun l => (hb l).1, fun l' hl' => ?_, by rw [ht, ht₂, ht₁]⟩
    rw [(hb l').2, hl l' hl', hs, hfrom]
  · refine ⟨fun row => { bump row with state, version := l.version + 1 }, fun l => (hb l).1, fun _ _ => rfl, ?_⟩
    rw [ht, ht₂, ht₁, hid, changeLoan_changeLoan _ _ fun l => (hb l).1]

end Loans

end LoanLedger.Ledger
