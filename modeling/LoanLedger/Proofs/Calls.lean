import LoanLedger.Proofs.Books

/-!
# What a call does to the rows

* `Told g c t a t'` : what the call `c` of the engine `g` does to the rows `t` when it is answered by
  `a`: it opens a loan and starts its log; it records an event that is ignored; it does the actions of a
  transition, moves the loan and records the transition; or it records a payment;
* `Weighed g e d d' c` : what an event does in its session by its decision, short of what its actions do;
* `work_told` : that is what a call does in its transaction, however it was disturbed.
-/

namespace LoanLedger.Engine

open Ledger Workflow

variable {d d' : Desk} {g : Engine} {e : Event}

/-! ## Records -/

theorem requestRecord_isPlain (task : Task) (x : Disbursement) : (requestRecord task x).IsPlain :=
  ⟨by simp [AuditRecord.IsJson, requestRecord, Value.IsJson, Value.IsRecord], nofun, nofun, rfl⟩

theorem unknownRecord_isPlain (task : Task) : (unknownRecord task).IsPlain :=
  ⟨by simp [AuditRecord.IsJson, unknownRecord, Value.IsJson, Value.IsRecord], nofun, nofun, rfl⟩

theorem ignoredRecord_isPlain (e : Event) (state : String) : (ignoredRecord e state).IsPlain :=
  ⟨by simp [AuditRecord.IsJson, ignoredRecord, Value.IsJson, Value.IsRecord], nofun, nofun, rfl⟩

theorem paymentRecord_isPlain (x : Disbursement) (actor : String) (t : Calendar.Timestamp) :
    (Disbursements.paymentRecord x actor t).IsPlain :=
  ⟨by simp [AuditRecord.IsJson, Disbursements.paymentRecord, Value.IsJson, Value.IsRecord], nofun, nofun, rfl⟩

theorem transitionRecord_isJson (e : Event) (fromState toState : String) :
    (transitionRecord e fromState toState).IsJson := by
  simp [AuditRecord.IsJson, transitionRecord, Value.IsJson, Value.IsRecord]

theorem openingRecord_isJson (founderId actor : String) (x : Definition) (t : Calendar.Timestamp) :
    (Loans.openingRecord founderId actor x t).IsJson := by
  simp [AuditRecord.IsJson, Loans.openingRecord, Value.IsJson, Value.IsRecord]

/-! ## Actions -/

theorem request_ok {task : Task} {kind : Tranche} {r : ActionResult} (h : request task kind d = .ok r d') :
    Remarked task.event.loanId d.session.tables d'.session.tables := by
  obtain ⟨answer, d₁, hr, h₁⟩ := Work.bind_ok h
  have books : SameBooks task.event.loanId d.session.tables d₁.session.tables := by
    rcases Work.recover_ok hr with hr | ⟨x, d₂, -, hh⟩
    · exact Keeps.ok (R := Desk.SameBooks task.event.loanId) hr
    · cases hh
  cases answer with
  | none => cases h₁
  | some answer =>
    obtain ⟨_, d₂, hk, h₂⟩ := Work.bind_ok h₁
    have ht : d₂.session.tables = d₁.session.tables := know_ok hk
    rw [← ht] at books
    split at h₂
    · obtain ⟨o, d₃, ha, h₃⟩ := Work.bind_ok h₂
      cases h₃
      exact .trans (.same books) (append_remarked (requestRecord_isPlain task _) ha)
    · cases h₂
      exact .same books

theorem recordUnknown_ok {task : Task} {r : ActionResult} (h : recordUnknown task d = .ok r d') :
    Remarked task.event.loanId d.session.tables d'.session.tables := by
  obtain ⟨_, d₁, he, h₁⟩ := Work.bind_ok h
  obtain ⟨o, d₂, ha, h₂⟩ := Work.bind_ok h₁
  cases h₂
  rw [← emit_ok he]
  exact append_remarked (unknownRecord_isPlain task) ha

theorem dispatch_ok {h : Dispatcher} {task : Task} {r : ActionResult} (hd : h.dispatch task d = .ok r d') :
    Remarked task.event.loanId d.session.tables d'.session.tables := by
  unfold Dispatcher.dispatch at hd
  cases hk : h.tranche? task.action.kind with
  | some kind =>
    rw [hk] at hd
    obtain ⟨r', d₁, hr, h₁⟩ := Work.bind_ok hd
    obtain ⟨_, d₂, he, h₂⟩ := Work.bind_ok h₁
    cases h₂
    rw [emit_ok he]
    exact request_ok hr
  | none =>
    rw [hk] at hd
    obtain ⟨r', d₁, hr, h₁⟩ := Work.bind_ok hd
    obtain ⟨_, d₂, he, h₂⟩ := Work.bind_ok h₁
    cases h₂
    rw [emit_ok he]
    exact recordUnknown_ok hr

theorem actions_ok {fromState : String} {t : Transition} {actions : List Action} :
    ∀ {d : Desk} {rs : List ActionResult}, actions.mapM (g.doAction e fromState t) d = .ok rs d' →
      Remarked e.loanId d.session.tables d'.session.tables := by
  induction actions with
  | nil =>
    intro d rs h
    rw [List.mapM_nil] at h
    cases h
    exact .same (.refl e.loanId _)
  | cons a actions ih =>
    intro d rs h
    rw [List.mapM_cons] at h
    obtain ⟨r, d₁, hr, h₁⟩ := Work.bind_ok h
    obtain ⟨rs', d₂, hrs, h₂⟩ := Work.bind_ok h₁
    cases h₂
    obtain ⟨_, d₃, hc, hr⟩ := Work.bind_ok hr
    have books : SameBooks e.loanId d.session.tables d₃.session.tables :=
      Keeps.ok (R := Desk.SameBooks e.loanId) hc
    exact .trans (.same books) (.trans (dispatch_ok hr) (ih hrs))

/-! ## Calls -/

/-- What a call does to the rows when it is answered. -/
inductive Told (g : Engine) (t : Tables) : Call → Answer → Tables → Prop where
  | opened {loanId founderId actor : String} {time : Calendar.Timestamp} {x : Entry} {t' : Tables} :
    t.loan? loanId = none →
    Appended loanId (Loans.openingRecord founderId actor g.definition time)
      { t with loans := t.loans ++ [Loans.initial loanId founderId g.definition] } x t' →
    Told g t (.open_ loanId founderId actor) (.opened (Loans.initial loanId founderId g.definition)) t'
  | ignored {e : Event} {l : Loan} {s : State} {x : Entry} {t' : Tables} :
    t.loan? e.loanId = some l → g.definition.find? l.state = some s → s.find? e.type = none →
    Appended e.loanId (ignoredRecord e l.state) t x t' →
    Told g t (.handle e) (.handled (Outcome.of e (.ignored l.state))) t'
  | applied {e : Event} {l : Loan} {s : State} {tr : Transition} {rs : List ActionResult} {x : Entry}
      {t₁ t₂ t' : Tables} :
    t.loan? e.loanId = some l → g.definition.find? l.state = some s → s.find? e.type = some tr →
    Remarked e.loanId t t₁ → Moved e.loanId tr.to t₁ t₂ →
    Appended e.loanId (transitionRecord e l.state tr.to) t₂ x t' →
    Told g t (.handle e) (.handled (Outcome.of e (.applied l.state tr.to rs))) t'
  | paid {loanId id actor : String} {x : Disbursement} {t' : Tables} :
    (∃ y ∈ t.disbursements, y.loanId = loanId) → Remarked loanId t t' →
    Told g t (.pay loanId id actor) (.paid x) t'

theorem checkCancelled_books {stage : String} {u : Unit} (h : checkCancelled e stage d = .ok u d') :
    d'.session = d.session := by
  rcases call_ok h with h | ⟨-, -, rfl⟩
  · obtain ⟨passes, d₁, hp, h₁⟩ := Work.bind_ok h
    have hs : d₁.session = d.session := by
      cases hp
      split <;> rfl
    split at h₁
    · cases h₁
    · cases h₁
      exact hs
  · rfl

theorem stateOf_ok {l : Loan} {s : State} (h : g.stateOf l d = .ok s d') :
    g.definition.find? l.state = some s ∧ d' = d := by
  unfold stateOf at h
  cases hs : g.definition.find? l.state with
  | some s' =>
    rw [hs] at h
    cases h
    exact ⟨rfl, rfl⟩
  | none =>
    rw [hs] at h
    obtain ⟨_, _, -, h₁⟩ := Work.bind_ok h
    cases h₁

theorem open_ok {loanId founderId actor : String} {l : Loan} (hd : d.IsHonest)
    (h : Loans.open_ loanId founderId g.definition actor d = .ok l d') :
    Told g d.session.tables (.open_ loanId founderId actor) (.opened l) d'.session.tables := by
  obtain ⟨found, d₁, hg, h₁⟩ := Work.bind_ok h
  have near₁ : d.Near d₁ := Keeps.ok hg
  obtain ⟨ht₁, -⟩ := Loans.get_ok hg
  cases found with
  | some l' =>
    obtain ⟨_, _, ht, -⟩ := Work.bind_ok h₁
    cases ht
  | none =>
    obtain ⟨_, d₂, hsp, h₂⟩ := Work.bind_ok h₁
    have near₂ : d₁.Near d₂ := Keeps.ok hsp
    obtain ⟨time, d₃, hn, h₃⟩ := Work.bind_ok h₂
    obtain ⟨-, rfl⟩ := now_ok hn
    obtain ⟨o, d₄, ha, h₄⟩ := Work.bind_ok h₃
    obtain ⟨_, d₅, he, h₅⟩ := Work.bind_ok h₄
    cases h₅
    rw [emit_ok he]
    obtain ⟨x, ha⟩ := AuditLog.append_appended (near₂.isHonest (near₁.isHonest hd))
      (openingRecord_isJson founderId actor g.definition time) ha
    rcases savepoint_ok hsp with ⟨d₆, d₇, -, hs₆, hadd, hs⟩ | ⟨_, -, -, hy⟩
    · obtain ⟨_, d₈, hc, hk⟩ := Work.bind_ok hadd
      obtain ⟨t, ht, hd₈⟩ := change_ok hc
      rw [hs, know_ok hk, hd₈] at ha
      rw [hs₆, ht₁] at ht
      split at ht
      · cases ht
      · split at ht
        · next h =>
          cases ht
          obtain ⟨hl, rfl⟩ := Tables.addLoan?_eq_some.mp h
          exact .opened hl ha
        · cases ht
    · cases hy

theorem getDisbursement_ok {loanId id : String} {x : Disbursement} (h : Disbursements.get loanId id d = .ok x d') :
    ∃ y ∈ d.session.tables.disbursements, y.loanId = loanId := by
  obtain ⟨found, d₁, hq, h₁⟩ := Work.bind_ok h
  obtain ⟨rfl, -⟩ := query_ok (guarded_ok hq)
  cases hf : d.session.tables.disbursement? loanId id with
  | none =>
    rw [hf] at h₁
    cases h₁
  | some y =>
    have hy : y.loanId = loanId ∧ y.id = id := by simpa using List.find?_some hf
    exact ⟨y, List.mem_of_find?_eq_some hf, hy.1⟩

theorem markPaid_ok {loanId id actor : String} {x : Disbursement}
    (h : Disbursements.markPaid loanId id actor d = .ok x d') :
    Told g d.session.tables (.pay loanId id actor) (.paid x) d'.session.tables := by
  obtain ⟨found, d₁, hg, h₁⟩ := Work.bind_ok h
  refine .paid (getDisbursement_ok hg) ?_
  have books : SameBooks loanId d.session.tables d₁.session.tables := Keeps.ok (R := Desk.SameBooks loanId) hg
  split at h₁
  · obtain ⟨_, d₂, he, h₂⟩ := Work.bind_ok h₁
    cases h₂
    exact .same (books.trans (.of_session (emit_ok he)))
  · obtain ⟨time, d₂, hn, h₂⟩ := Work.bind_ok h₁
    obtain ⟨-, rfl⟩ := now_ok hn
    obtain ⟨paid, d₃, hp, h₃⟩ := Work.bind_ok h₂
    obtain ⟨o, d₄, ha, h₄⟩ := Work.bind_ok h₃
    obtain ⟨_, d₅, he, h₅⟩ := Work.bind_ok h₄
    cases h₅
    have books' : SameBooks loanId d₂.session.tables d₃.session.tables :=
      Keeps.ok (R := Desk.SameBooks loanId) hp
    rw [emit_ok he]
    exact .trans (.same (books.trans books')) (append_remarked (paymentRecord_isPlain found actor time) ha)

theorem ignore_ok {state : String} {c : Decision} (hd : d.IsHonest) (h : ignore e state d = .ok c d') :
    c = .ignored state ∧ ∃ x, Appended e.loanId (ignoredRecord e state) d.session.tables x d'.session.tables := by
  obtain ⟨o, d₁, ha, h₁⟩ := Work.bind_ok h
  obtain ⟨_, d₂, hc, h₂⟩ := Work.bind_ok h₁
  cases h₂
  obtain ⟨x, ha⟩ := AuditLog.append_appended hd (ignoredRecord_isPlain e state).isJson ha
  rw [checkCancelled_books hc]
  exact ⟨rfl, x, ha⟩

theorem take_ok {l : Loan} {tr : Transition} {c : Decision} (hd : d.IsHonest)
    (hl : d.session.tables.loan? e.loanId = some l) (h : g.take e l.state tr d = .ok c d') :
    ∃ rs d₁ x t₂, c = .applied l.state tr.to rs ∧ tr.actions.mapM (g.doAction e l.state tr) d = .ok rs d₁ ∧
      Moved e.loanId tr.to d₁.session.tables t₂ ∧
      Appended e.loanId (transitionRecord e l.state tr.to) t₂ x d'.session.tables := by
  obtain ⟨rs, d₁, hacts, h₁⟩ := Work.bind_ok h
  obtain ⟨o₁, d₂, hu, h₂⟩ := Work.bind_ok h₁
  obtain ⟨o₂, d₃, ha, h₃⟩ := Work.bind_ok h₂
  obtain ⟨_, d₄, hc, h₄⟩ := Work.bind_ok h₃
  cases h₄
  have near₁ : d.Near d₁ := Keeps.ok hacts
  have near₂ : d₁.Near d₂ := Keeps.ok hu
  have hd₁ : d₁.IsHonest := near₁.isHonest hd
  have hfrom : ∀ l', d₁.session.tables.loan? e.loanId = some l' → l'.state = l.state := by
    intro l' hl'
    rw [loan?_of_loans (actions_ok hacts).loans] at hl'
    rw [Option.some.inj (hl'.symm.trans hl)]
  obtain ⟨x, ha⟩ := AuditLog.append_appended (near₂.isHonest hd₁) (transitionRecord_isJson e l.state tr.to) ha
  rw [checkCancelled_books hc]
  exact ⟨rs, d₁, x, _, rfl, hacts, Loans.updateState_ok hd₁ hfrom hu, ha⟩

/-- What an event does to the rows in its session, short of what its actions do. -/
inductive Weighed (g : Engine) (e : Event) (d d' : Desk) : Decision → Prop where
  | ignored {l : Loan} {s : State} {x : Entry} :
    d.session.tables.loan? e.loanId = some l → g.definition.find? l.state = some s → s.find? e.type = none →
    Appended e.loanId (ignoredRecord e l.state) d.session.tables x d'.session.tables →
    Weighed g e d d' (.ignored l.state)
  | applied {l : Loan} {s : State} {tr : Transition} {rs : List ActionResult} {x : Entry} {d₀ d₁ : Desk}
      {t₂ : Tables} :
    d.session.tables.loan? e.loanId = some l → g.definition.find? l.state = some s → s.find? e.type = some tr →
    d.Near d₀ → d₀.session.tables = d.session.tables →
    tr.actions.mapM (g.doAction e l.state tr) d₀ = .ok rs d₁ → Moved e.loanId tr.to d₁.session.tables t₂ →
    Appended e.loanId (transitionRecord e l.state tr.to) t₂ x d'.session.tables →
    Weighed g e d d' (.applied l.state tr.to rs)

theorem weigh_weighed {c : Decision} (hd : d.IsHonest) (h : g.weigh e d = .ok (.inr c) d') : g.Weighed e d d' c := by
  obtain ⟨l, d₁, hr, h₁⟩ := Work.bind_ok h
  obtain ⟨ht₁, -, hl⟩ := Loans.require_ok hr
  obtain ⟨s, d₂, hs, h₂⟩ := Work.bind_ok h₁
  obtain ⟨hstate, rfl⟩ := stateOf_ok hs
  obtain ⟨entry, d₃, hf, h₃⟩ := Work.bind_ok h₂
  have near₃ : d.Near d₃ := Frame.trans (Keeps.ok hr : d.Near d₂) (Keeps.ok hf)
  have ht₃ : d₃.session.tables = d.session.tables := by rw [AuditLog.findTransition_ok hf, ht₁]
  have hl := hl rfl
  cases entry with
  | some entry => cases h₃
  | none =>
    dsimp only at h₃
    cases htr : s.find? e.type with
    | none =>
      rw [htr] at h₃
      obtain ⟨c', h₄, hc⟩ := Work.map_ok h₃
      cases hc
      obtain ⟨rfl, x, ha⟩ := ignore_ok (near₃.isHonest hd) h₄
      exact .ignored hl hstate htr (ht₃ ▸ ha)
    | some tr =>
      rw [htr] at h₃
      obtain ⟨c', h₄, hc⟩ := Work.map_ok h₃
      cases hc
      obtain ⟨rs, d₄, x, t₂, rfl, hacts, hm, ha⟩ := take_ok (near₃.isHonest hd) (ht₃ ▸ hl) h₄
      exact .applied hl hstate htr near₃ ht₃ hacts hm ha

/-- What was applied before is found after the loan. -/
theorem weigh_found {entry : Entry} (h : g.weigh e d = .ok (.inl entry) d') :
    ∃ l d₁, Loans.require e.loanId true d = .ok l d₁ ∧
      AuditLog.findTransition e.key d₁ = .ok (some entry) d' := by
  obtain ⟨l, d₁, hr, h₁⟩ := Work.bind_ok h
  obtain ⟨s, d₂, hs, h₂⟩ := Work.bind_ok h₁
  obtain ⟨-, rfl⟩ := stateOf_ok hs
  obtain ⟨found, d₃, hf, h₃⟩ := Work.bind_ok h₂
  cases found with
  | some x =>
    cases h₃
    exact ⟨l, _, hr, hf⟩
  | none =>
    dsimp only at h₃
    cases htr : s.find? e.type <;> rw [htr] at h₃ <;> obtain ⟨_, -, hc⟩ := Work.map_ok h₃ <;> cases hc

theorem weigh_ok {c : Decision} (hd : d.IsHonest) (h : g.weigh e d = .ok (.inr c) d') :
    Told g d.session.tables (.handle e) (.handled (Outcome.of e c)) d'.session.tables := by
  cases weigh_weighed hd h with
  | ignored hl hs htr ha => exact .ignored hl hs htr ha
  | applied hl hs htr _ ht hacts hm ha => exact .applied hl hs htr (ht ▸ actions_ok hacts) hm ha

/-- What a call does in its transaction, however it was disturbed. -/
theorem work_told {c : Call} {a : Answer} (hd : d.IsHonest) (h : g.work c d = .ok (some a) d') :
    Told g d.session.tables c a d'.session.tables := by
  cases c with
  | open_ loanId founderId actor =>
    obtain ⟨l, d₁, ho, h₁⟩ := Work.bind_ok h
    cases h₁
    exact open_ok hd ho
  | handle e =>
    obtain ⟨r, d₁, hw, h₁⟩ := Work.bind_ok h
    cases r with
    | inl entry => cases h₁
    | inr c =>
      cases h₁
      exact weigh_ok hd hw
  | pay loanId id actor =>
    obtain ⟨x, d₁, hp, h₁⟩ := Work.bind_ok h
    cases h₁
    exact markPaid_ok hp

end LoanLedger.Engine
