import LoanLedger.Proofs.Tame.Ledger
import LoanLedger.Proofs.Turns

/-!
# What a call does to the rows, to the last row

* `Tables.Lacks t loanId kind row` : `row` is a pending request of a loan for a tranche that it has none for;
* `Tables.requested t row`, `Tables.paid t id paidAt` : the rows with that request, and with one that is paid;
* `Acted h task t r t'` : what an action does to the rows when it is answered by `r`: it is recorded as unknown, it
  finds a request, or it makes one and records it;
* `Acts h e a b actions t rs t'` : so the actions of a transition do, one after the other;
* `Done g t c x t'` : what a call does to the rows when it is answered by `x`;
* `work_done` : that is what a call does in its transaction, if no fault pretends that a request was there;
* `Turn.IsFair y` : the turn is such a call; `turn_done`, `run_keeps_done` : so its rows and those of a run are told.

`Done` says more than `Told`, which holds whatever the faults pretend.
-/

namespace LoanLedger.Ledger

open Calendar (Timestamp)

variable {d d' : Desk} {t t' : Tables} {loanId id : String} {kind : Tranche} {row x : Disbursement} {err : Error}

/-- A pending request of a loan for a tranche that it has none for, under an id that no request has. -/
structure Tables.Lacks (t : Tables) (loanId : String) (kind : Tranche) (row : Disbursement) : Prop where
  isNone : t.disbursementFor? loanId kind = none
  ownId : ∀ y ∈ t.disbursements, y.id ≠ row.id
  ofLoan : row.loanId = loanId
  ofKind : row.kind = kind
  status : row.status = .pending
  paidAt : row.paidAt = none

def Tables.requested (t : Tables) (row : Disbursement) : Tables :=
  { t with disbursements := t.disbursements ++ [row] }

def Tables.paid (t : Tables) (id : String) (paidAt : Timestamp) : Tables :=
  t.changeDisbursement id fun row => { row with status := .paid, paidAt := some paidAt }

theorem disbursementFor?_append {news : List Disbursement}
    (hf : t.disbursementFor? loanId kind = some row) (hd : t'.disbursements = t.disbursements ++ news) :
    t'.disbursementFor? loanId kind = some row := by
  unfold Tables.disbursementFor? at hf ⊢
  rw [hd, List.find?_append, hf, Option.some_or]

/-- The first request of a loan for a tranche is found, and so is every other one as before. -/
theorem Tables.Lacks.disbursementFor? (hl : t.Lacks loanId kind row) (other : Tranche) :
    (t.requested row).disbursementFor? loanId other =
      if other = kind then some row else t.disbursementFor? loanId other := by
  have hnone := hl.isNone
  unfold Tables.disbursementFor? at hnone ⊢
  rw [Tables.requested, List.find?_append]
  by_cases ho : other = kind
  · subst ho
    rw [hnone, if_pos rfl, Option.none_or, List.find?_cons_of_pos (by simp [hl.ofLoan, hl.ofKind])]
  · rw [if_neg ho, List.find?_cons_of_neg (by simp [hl.ofKind, Ne.symm ho]), List.find?_nil, Option.or_none]

theorem disbursementFor?_of_disbursements (hd : t'.disbursements = t.disbursements) (loanId : String) (kind : Tranche) :
    t'.disbursementFor? loanId kind = t.disbursementFor? loanId kind := by
  rw [Tables.disbursementFor?, hd, Tables.disbursementFor?]

/-- A time that is kept is the time in UTC. -/
theorem toUtc?_of_keepTime? {time kept : Timestamp} (h : Column.keepTime? time = .ok kept) :
    time.toUtc? = some kept := by
  unfold Column.keepTime? Column.bindTime? at h
  cases hu : time.toUtc? with
  | none =>
    rw [Column.utc?, hu] at h
    split at h <;> cases h
  | some u =>
    rw [Column.utc?, hu] at h
    split at h
    · have hback : Column.utc? { u with offset := none } = .ok u := by
        have hoff : u.offset = some Calendar.Offset.utc := Timestamp.isUtc_of_toUtc? hu
        obtain ⟨date, time, offset⟩ := u
        cases hoff
        rfl
      rw [← Except.ok.inj (hback.symm.trans h)]
    · cases h

namespace Disbursements

/-! ## Requests -/

theorem find_ok {o : Option Disbursement} (h : find loanId kind d = .ok o d') :
    d'.session.tables = d.session.tables ∧ ∀ x, o = some x →
      d.session.tables.disbursementFor? loanId kind = some x := by
  rcases call_ok h with h | ⟨-, rfl, rfl⟩
  · obtain ⟨found, d₁, hq, h₁⟩ := Work.bind_ok (guarded_ok h)
    obtain ⟨hf, hs⟩ := query_ok hq
    have ht : d₁.session.tables = d.session.tables := congrArg Session.tables hs
    cases found with
    | none =>
      cases h₁
      exact ⟨ht, fun _ hx => nomatch hx⟩
    | some x =>
      cases h₁
      exact ⟨ht, fun y hy => by cases hy; exact hf.symm⟩
  · exact ⟨rfl, fun _ hx => nomatch hx⟩

theorem get_ok (h : get loanId id d = .ok x d') : d'.session = d.session ∧
    ∃ row, d.session.tables.disbursement? loanId id = some row ∧ x = recalled d.session.known row := by
  obtain ⟨found, d₁, hq, h₁⟩ := Work.bind_ok h
  obtain ⟨rfl, hs⟩ := query_ok (guarded_ok hq)
  cases hf : d.session.tables.disbursement? loanId id with
  | none =>
    rw [hf] at h₁
    cases h₁
  | some row =>
    rw [hf] at h₁
    cases h₁
    exact ⟨hs, row, rfl, by rw [hs]⟩

theorem add_ok {u : Unit} (h : add x d = .ok u d') : ∃ row, x.stored? = .ok row ∧
    ((∀ y ∈ d.session.tables.disbursements, y.id ≠ row.id) ∧
      d.session.tables.disbursementFor? row.loanId row.kind = none) ∧
    d'.session.tables = d.session.tables.requested row := by
  obtain ⟨_, d₁, hc, hk⟩ := Work.bind_ok h
  obtain ⟨t, ht, hd⟩ := change_ok hc
  cases hs : x.stored? with
  | error e => rw [hs] at ht; cases ht
  | ok row =>
    rw [hs] at ht
    dsimp only at ht
    split at ht
    · next hadd =>
      cases ht
      obtain ⟨hnew, rfl⟩ := Tables.addDisbursement?_eq_some.mp hadd
      exact ⟨row, rfl, hnew, by rw [know_ok hk, hd]; rfl⟩
    · cases ht

/-- A request that was made is a new one. -/
theorem submit_ok (h : submit loanId kind d = .ok x d') :
    ∃ row, row.id = x.id ∧ d.session.tables.Lacks loanId kind row ∧
      d'.session.tables = d.session.tables.requested row := by
  obtain ⟨found, d₁, hf, h₁⟩ := Work.bind_ok h
  obtain ⟨ht₁, -⟩ := find_ok hf
  cases found with
  | some y => cases h₁
  | none =>
    obtain ⟨id, d₂, hid, h₂⟩ := Work.bind_ok h₁
    have ht₂ : d₂.session.tables = d₁.session.tables := by cases hid; rfl
    obtain ⟨time, d₃, hn, h₃⟩ := Work.bind_ok h₂
    obtain ⟨-, rfl⟩ := now_ok hn
    obtain ⟨_, d₄, hg, h₄⟩ := Work.bind_ok h₃
    cases h₄
    rcases savepoint_ok (guarded_ok hg) with ⟨d₅, d₆, -, hs₅, hadd, hs⟩ | ⟨d₅, -, -, hy⟩
    · obtain ⟨row, hrow, ⟨hids, hnone⟩, ht⟩ := add_ok hadd
      obtain ⟨createdAt, paidAt, -, hp, rfl⟩ := stored?_ok hrow
      obtain rfl : none = paidAt := Except.ok.inj hp
      rw [hs₅, ht₂, ht₁] at hids hnone ht
      exact ⟨⟨id, loanId, kind, .pending, createdAt, none⟩, rfl, ⟨hnone, hids, rfl, rfl, rfl, rfl⟩,
        by rw [hs]; exact ht⟩
    · obtain ⟨found, d₆, -, hy⟩ := Work.bind_ok hy
      cases found <;> cases hy

/-- A request that was not made as there is one leaves the rows as they are. -/
theorem submit_exists (hd : d.Spares .disbursementAlreadyExists) (h : submit loanId kind d = .error err d')
    (he : err.kind? = some .disbursementAlreadyExists) : d'.session.tables = d.session.tables ∧
      ∃ row, d.session.tables.disbursementFor? loanId kind = some row ∧ err = alreadyExists row := by
  rcases Work.bind_error h with h | ⟨found, d₁, hf, h₁⟩
  · exact absurd he ((find_tame loanId kind).kind_ne (by decide) hd h)
  obtain ⟨ht₁, hfound⟩ := find_ok hf
  cases found with
  | some y =>
    cases h₁
    exact ⟨ht₁, y, hfound y rfl, rfl⟩
  | none =>
    have near₁ : d.Near d₁ := Keeps.ok hf
    rcases Work.bind_error h₁ with h | ⟨id, d₂, hid, h₂⟩
    · cases h
    have near₂ : d.Near d₂ := Frame.trans near₁ (Keeps.ok hid)
    have ht₂ : d₂.session.tables = d₁.session.tables := by cases hid; rfl
    rcases Work.bind_error h₂ with h | ⟨time, d₃, hn, h₃⟩
    · exact absurd he ((Tame.now (.head [])).kind_ne (by decide) (near₂.spares hd) h)
    obtain ⟨-, rfl⟩ := now_ok hn
    rcases Work.bind_error h₃ with h | ⟨_, _, -, h⟩
    · obtain ⟨err₁, d₄, hg, hh⟩ := Work.recover_error h
      split at hh
      · obtain ⟨log, hr⟩ := emit_run .error "services.ledger" "ledger_unavailable" _ d₄
        cases (Work.bind_of_ok hr).symm.trans hh
        cases he
      · cases hh
        rcases savepoint_error hg with hs | ⟨d₅, near₅, -, hx⟩ | ⟨d₅, near₅, hs₅, hy⟩
        · exact absurd he ((Tame.statement (.head [])).kind_ne (by decide) (near₂.spares hd) hs)
        · have added := (add_tame ⟨id, loanId, kind, .pending, time, none⟩).bind fun u =>
            (Tame.statement (.head [])).bind fun _ => .pure u
          exact absurd he (added.kind_ne (by decide) ((Frame.trans near₂ near₅ : d.Near d₅).spares hd) hx)
        · have near₅ : d.Near d₅ := Frame.trans near₂ near₅
          rcases Work.bind_error hy with hy | ⟨found, d₆, hf, hy⟩
          · exact absurd he ((find_tame loanId kind).kind_ne (by decide) (near₅.spares hd) hy)
          obtain ⟨ht₆, hfound⟩ := find_ok hf
          rw [hs₅, ht₂, ht₁] at ht₆ hfound
          cases found with
          | some winner =>
            cases hy
            exact ⟨ht₆, winner, hfound winner rfl, rfl⟩
          | none =>
            cases hy
            cases he
    · cases h

/-- The answer to a request tells a new one, or the one that there is. -/
theorem request_done {answer : Answer} (hd : d.Spares .disbursementAlreadyExists)
    (h : request loanId kind d = .ok (some answer) d') :
    ∃ row, row.id = answer.record.id ∧
      (answer.created = true ∧ d.session.tables.Lacks loanId kind row ∧
          d'.session.tables = d.session.tables.requested row ∨
        answer.created = false ∧ d.session.tables.disbursementFor? loanId kind = some row ∧
          d'.session.tables = d.session.tables) := by
  rcases call_ok h with h | ⟨-, h, -⟩
  · obtain ⟨r, d₁, hr, h₁⟩ := Work.bind_ok h
    rcases Work.attempt_ok hr with ⟨x, rfl, hx⟩ | ⟨err, rfl, hx⟩
    · obtain ⟨row, hid, hnew, ht⟩ := submit_ok hx
      obtain ⟨_, d₂, he, h₂⟩ := Work.bind_ok h₁
      cases h₂
      rw [emit_ok he]
      exact ⟨row, hid, .inl ⟨rfl, hnew, ht⟩⟩
    · cases err with
      | failure f =>
        dsimp only at h₁
        split at h₁
        · next hf =>
          obtain ⟨a, d₂, he, h₂⟩ := Work.bind_ok h₁
          cases h₂
          have spared : (d.passed .createDisbursement).Spares .disbursementAlreadyExists :=
            (Desk.Quiet.passed d _).toBeside.spares hd
          obtain ⟨ht, row, hrow, herr⟩ := submit_exists spared hx (congrArg some hf)
          cases herr
          obtain ⟨_, d₃, hn, he⟩ := Work.bind_ok he
          obtain ⟨y, d₄, hg, he⟩ := Work.bind_ok he
          cases he
          have hg : get loanId row.id d₃ = .ok y d' := hg
          obtain ⟨hs, row', hrow', rfl⟩ := get_ok hg
          have hid : row'.loanId = loanId ∧ row'.id = row.id := by simpa using List.find?_some hrow'
          refine ⟨row, ?_, .inr ⟨rfl, hrow, by rw [hs, emit_ok hn, ht]; rfl⟩⟩
          rw [← hid.2]
          exact (recalled_id _ _).symm
        · cases h₁
      | _ => cases h₁
  · cases h

end Disbursements

end LoanLedger.Ledger

namespace LoanLedger.Engine

open Ledger Workflow

variable {d d' : Desk} {g : Engine} {h : Dispatcher} {e : Event} {t t' : Tables} {a b : String}

/-! ## Actions -/

/-- What an action does to the rows when it is answered. -/
inductive Acted (h : Dispatcher) (task : Task) (t : Tables) : ActionResult → Tables → Prop where
  | unknown {x : Entry} {t' : Tables} :
    h.tranche? task.action.kind = none → Appended task.event.loanId (unknownRecord task) t x t' →
    Acted h task t (.unknown task.action) t'
  | again {kind : Tranche} {row : Disbursement} :
    h.tranche? task.action.kind = some kind → t.disbursementFor? task.event.loanId kind = some row →
    Acted h task t (.requested task.action row.id kind false) t
  | anew {kind : Tranche} {row : Disbursement} {x : Entry} {t' : Tables} :
    h.tranche? task.action.kind = some kind → t.Lacks task.event.loanId kind row →
    Appended task.event.loanId (requestRecord task row) (t.requested row) x t' →
    Acted h task t (.requested task.action row.id kind true) t'

/-- What the actions of a transition do to the rows, one after the other. -/
inductive Acts (h : Dispatcher) (e : Event) (a b : String) :
    List Action → Tables → List ActionResult → Tables → Prop where
  | nil {t : Tables} : Acts h e a b [] t [] t
  | cons {x : Action} {xs : List Action} {r : ActionResult} {rs : List ActionResult} {t t₁ t' : Tables} :
    Acted h ⟨e, a, b, x⟩ t r t₁ → Acts h e a b xs t₁ rs t' → Acts h e a b (x :: xs) t (r :: rs) t'

/-- Actions add requests behind those that there are. -/
theorem Acts.disbursements {xs : List Action} {rs : List ActionResult} (ha : Acts h e a b xs t rs t') :
    ∃ news, t'.disbursements = t.disbursements ++ news := by
  induction ha with
  | nil => exact ⟨[], (List.append_nil _).symm⟩
  | @cons _ _ _ _ t t₁ t' ha _ ih =>
    obtain ⟨news, hnews⟩ := ih
    have first : ∃ new, t₁.disbursements = t.disbursements ++ new := by
      cases ha with
      | unknown _ ha => exact ⟨[], by rw [ha.disbursements, List.append_nil]⟩
      | again => exact ⟨[], (List.append_nil _).symm⟩
      | anew _ _ ha => exact ⟨_, ha.disbursements⟩
    obtain ⟨new, hnew⟩ := first
    exact ⟨new ++ news, by rw [hnews, hnew, List.append_assoc]⟩

/-- What a handler requests is there afterwards. -/
theorem Acts.requested {xs : List Action} {rs : List ActionResult} (ha : Acts h e a b xs t rs t') :
    ∀ x ∈ xs, ∀ kind, h.tranche? x.kind = some kind →
      ∃ row, t'.disbursementFor? e.loanId kind = some row := by
  induction ha with
  | nil => exact fun x hx => absurd hx List.not_mem_nil
  | @cons y ys _ _ t t₁ t' ha hacts ih =>
    intro x hx kind hk
    rcases List.mem_cons.mp hx with rfl | hx
    · obtain ⟨news, hnews⟩ := hacts.disbursements
      have first : ∃ row, t₁.disbursementFor? e.loanId kind = some row := by
        cases ha with
        | unknown hn => rw [hk] at hn; cases hn
        | again hk' hf =>
          cases hk.symm.trans hk'
          exact ⟨_, hf⟩
        | @anew _ row _ _ hk' hl ha =>
          cases hk.symm.trans hk'
          exact ⟨row, by rw [disbursementFor?_of_disbursements ha.disbursements, hl.disbursementFor?, if_pos rfl]⟩
      obtain ⟨row, hrow⟩ := first
      exact ⟨row, disbursementFor?_append hrow hnews⟩
    · exact ih x hx kind hk

theorem recordUnknown_done {task : Task} {r : ActionResult} (hd : d.IsHonest)
    (hk : h.tranche? task.action.kind = none) (hr : recordUnknown task d = .ok r d') :
    Acted h task d.session.tables r d'.session.tables := by
  obtain ⟨_, d₁, he, h₁⟩ := Work.bind_ok hr
  obtain ⟨o, d₂, ha, h₂⟩ := Work.bind_ok h₁
  cases h₂
  have near : d.Near d₁ := Keeps.ok he
  obtain ⟨x, ha⟩ := AuditLog.append_appended (near.isHonest hd) (unknownRecord_isPlain task).isJson ha
  exact .unknown hk (emit_ok he ▸ ha)

theorem request_done {task : Task} {kind : Tranche} {r : ActionResult} (hd : d.IsHonest)
    (hs : d.Spares .disbursementAlreadyExists) (hk : h.tranche? task.action.kind = some kind)
    (hr : request task kind d = .ok r d') : Acted h task d.session.tables r d'.session.tables := by
  obtain ⟨answer, d₁, hreq, h₁⟩ := Work.bind_ok hr
  rcases Work.recover_ok hreq with hreq | ⟨_, _, -, hh⟩
  · cases answer with
    | none => cases h₁
    | some answer =>
      obtain ⟨row, hid, hdone⟩ := Disbursements.request_done hs hreq
      obtain ⟨_, d₂, hf, h₂⟩ := Work.bind_ok h₁
      have ht : d₂.session.tables = d₁.session.tables := know_ok hf
      rcases hdone with ⟨hc, hlacks, ht₁⟩ | ⟨hc, hrow, ht₁⟩
      · rw [hc, if_pos rfl] at h₂
        obtain ⟨o, d₃, ha, h₃⟩ := Work.bind_ok h₂
        cases h₃
        have near : d.Near d₂ := Frame.trans (Keeps.ok hreq : d.Near d₁) (Keeps.ok hf)
        obtain ⟨x, ha⟩ := AuditLog.append_appended (near.isHonest hd) (requestRecord_isPlain task _).isJson ha
        rw [ht, ht₁] at ha
        have hrec : requestRecord task { answer.record with kind } = requestRecord task row := by
          rw [requestRecord, requestRecord, hlacks.ofKind, hid]
        rw [← hid]
        exact .anew hk hlacks (hrec ▸ ha)
      · rw [hc, if_neg Bool.false_ne_true] at h₂
        cases h₂
        rw [← hid, ht, ht₁]
        exact .again hk hrow
  · cases hh

theorem doAction_done {fromState : String} {tr : Transition} {x : Action} {r : ActionResult} (hd : d.IsHonest)
    (hs : d.Spares .disbursementAlreadyExists) (hr : g.doAction e fromState tr x d = .ok r d') :
    Acted g.dispatcher ⟨e, fromState, tr.to, x⟩ d.session.tables r d'.session.tables := by
  obtain ⟨_, d₁, hc, hr⟩ := Work.bind_ok hr
  have near : d.Near d₁ := Keeps.ok hc
  rw [← checkCancelled_books hc]
  unfold Dispatcher.dispatch at hr
  cases hk : g.dispatcher.tranche? x.kind with
  | some kind =>
    rw [hk] at hr
    obtain ⟨r', d₂, hr, h₁⟩ := Work.bind_ok hr
    obtain ⟨_, d₃, he, h₂⟩ := Work.bind_ok h₁
    cases h₂
    rw [emit_ok he]
    exact request_done (near.isHonest hd) (near.spares hs) hk hr
  | none =>
    rw [hk] at hr
    obtain ⟨r', d₂, hr, h₁⟩ := Work.bind_ok hr
    obtain ⟨_, d₃, he, h₂⟩ := Work.bind_ok h₁
    cases h₂
    rw [emit_ok he]
    exact recordUnknown_done (near.isHonest hd) hk hr

theorem actions_done {fromState : String} {tr : Transition} {xs : List Action} :
    ∀ {d : Desk} {rs : List ActionResult}, d.IsHonest → d.Spares .disbursementAlreadyExists →
      xs.mapM (g.doAction e fromState tr) d = .ok rs d' →
        Acts g.dispatcher e fromState tr.to xs d.session.tables rs d'.session.tables := by
  induction xs with
  | nil =>
    intro d rs _ _ h
    rw [List.mapM_nil] at h
    cases h
    exact .nil
  | cons x xs ih =>
    intro d rs hd hs h
    rw [List.mapM_cons] at h
    obtain ⟨r, d₁, hr, h₁⟩ := Work.bind_ok h
    obtain ⟨rs', d₂, hrs, h₂⟩ := Work.bind_ok h₁
    cases h₂
    have near : d.Near d₁ := Keeps.ok hr
    exact .cons (doAction_done hd hs hr) (ih (near.isHonest hd) (near.spares hs) hrs)

/-! ## Payments -/

theorem pay_ok {x y : Disbursement} {time : Calendar.Timestamp} (h : Disbursements.pay x time d = .ok y d') :
    y = { x with status := .paid, paidAt := some time } ∧ ∃ paidAt, Column.keepTime? time = .ok paidAt ∧
      d'.session.tables = d.session.tables.paid x.id paidAt := by
  obtain ⟨_, d₁, hc, h₁⟩ := Work.bind_ok h
  obtain ⟨_, d₂, hk, h₂⟩ := Work.bind_ok h₁
  cases h₂
  obtain ⟨t, ht, hd⟩ := change_ok hc
  cases hp : Column.keepTime? time with
  | error _ => rw [hp] at ht; cases ht
  | ok paidAt =>
    rw [hp] at ht
    cases ht
    exact ⟨rfl, paidAt, rfl, by rw [know_ok hk, hd]; rfl⟩

/-! ## Calls -/

/-- What a call does to the rows when it is answered, if no fault pretends that a request was there. -/
inductive Done (g : Engine) (t : Tables) : Call → Answer → Tables → Prop where
  | opened {loanId founderId actor : String} {time : Calendar.Timestamp} {x : Entry} {t' : Tables} :
    t.loan? loanId = none →
    Appended loanId (Loans.openingRecord founderId actor g.definition time)
      { t with loans := t.loans ++ [Loans.initial loanId founderId g.definition] } x t' →
    Done g t (.open_ loanId founderId actor) (.opened (Loans.initial loanId founderId g.definition)) t'
  | ignored {e : Event} {l : Loan} {s : State} {x : Entry} {t' : Tables} :
    t.loan? e.loanId = some l → g.definition.find? l.state = some s → s.find? e.type = none →
    Appended e.loanId (ignoredRecord e l.state) t x t' →
    Done g t (.handle e) (.handled (Outcome.of e (.ignored l.state))) t'
  | applied {e : Event} {l : Loan} {s : State} {tr : Transition} {rs : List ActionResult} {x : Entry}
      {t₁ t₂ t' : Tables} :
    t.loan? e.loanId = some l → g.definition.find? l.state = some s → s.find? e.type = some tr →
    Acts g.dispatcher e l.state tr.to tr.actions t rs t₁ → Moved e.loanId tr.to t₁ t₂ →
    Appended e.loanId (transitionRecord e l.state tr.to) t₂ x t' →
    Done g t (.handle e) (.handled (Outcome.of e (.applied l.state tr.to rs))) t'
  | paidBefore {loanId id actor : String} {row : Disbursement} :
    t.disbursement? loanId id = some row → row.status = .paid → Done g t (.pay loanId id actor) (.paid row) t
  | paid {loanId id actor : String} {row : Disbursement} {time paidAt : Calendar.Timestamp} {x : Entry} {t' : Tables} :
    t.disbursement? loanId id = some row → row.status ≠ .paid → Column.keepTime? time = .ok paidAt →
    Appended loanId (Disbursements.paymentRecord row actor time) (t.paid row.id paidAt) x t' →
    Done g t (.pay loanId id actor) (.paid { row with status := .paid, paidAt := some time }) t'

theorem weigh_done {c : Decision} (hd : d.IsHonest) (hs : d.Spares .disbursementAlreadyExists)
    (h : g.weigh e d = .ok (.inr c) d') :
    Done g d.session.tables (.handle e) (.handled (Outcome.of e c)) d'.session.tables := by
  cases weigh_weighed hd h with
  | ignored hl hst htr ha => exact .ignored hl hst htr ha
  | applied hl hst htr near ht hacts hm ha =>
    exact .applied hl hst htr (ht ▸ actions_done (near.isHonest hd) (near.spares hs) hacts) hm ha

theorem markPaid_done {loanId id actor : String} {x : Disbursement} (hd : d.IsHonest)
    (hk : d.session.known.disbursements = []) (h : Disbursements.markPaid loanId id actor d = .ok x d') :
    Done g d.session.tables (.pay loanId id actor) (.paid x) d'.session.tables := by
  obtain ⟨y, d₁, hg, h₁⟩ := Work.bind_ok h
  obtain ⟨hs, row, hrow, rfl⟩ := Disbursements.get_ok hg
  have near : d.Near d₁ := Keeps.ok hg
  have hknown : Disbursements.recalled d.session.known row = row := by
    rw [Disbursements.recalled, hk]
    rfl
  rw [hknown] at h₁
  split at h₁
  · next hp =>
    obtain ⟨_, d₂, he, h₂⟩ := Work.bind_ok h₁
    cases h₂
    have ht : d'.session.tables = d.session.tables := by rw [emit_ok he, hs]
    rw [ht]
    exact .paidBefore hrow (of_decide_eq_true hp)
  · next hp =>
    obtain ⟨time, d₂, hn, h₂⟩ := Work.bind_ok h₁
    obtain ⟨-, rfl⟩ := now_ok hn
    obtain ⟨paid, d₃, hpay, h₃⟩ := Work.bind_ok h₂
    obtain ⟨o, d₄, ha, h₄⟩ := Work.bind_ok h₃
    obtain ⟨_, d₅, he, h₅⟩ := Work.bind_ok h₄
    cases h₅
    have near₃ : d.Near d₃ := Frame.trans near (Keeps.ok hpay)
    obtain ⟨rfl, paidAt, hkeep, ht⟩ := pay_ok (guarded_ok hpay)
    obtain ⟨e, ha⟩ :=
      AuditLog.append_appended (near₃.isHonest hd) (paymentRecord_isPlain row actor time).isJson ha
    rw [ht, hs] at ha
    rw [emit_ok he]
    exact .paid hrow (fun h => hp (decide_eq_true h)) hkeep ha

/-- What a call does in its transaction, if no fault pretends that a request was there. -/
theorem work_done {c : Call} {x : Answer} (hd : d.IsHonest) (hs : d.Spares .disbursementAlreadyExists)
    (hk : d.session.known.disbursements = []) (h : g.work c d = .ok (some x) d') :
    Done g d.session.tables c x d'.session.tables := by
  cases c with
  | open_ loanId founderId actor =>
    obtain ⟨l, d₁, ho, h₁⟩ := Work.bind_ok h
    cases h₁
    cases open_ok hd ho with
    | opened hl ha => exact .opened hl ha
  | handle e =>
    obtain ⟨r, d₁, hw, h₁⟩ := Work.bind_ok h
    cases r with
    | inl entry => cases h₁
    | inr c =>
      cases h₁
      exact weigh_done hd hs hw
  | pay loanId id actor =>
    obtain ⟨x, d₁, hp, h₁⟩ := Work.bind_ok h
    cases h₁
    exact markPaid_done hd hk hp

theorem Desk.Begun.spares {d₀ : Desk} {k : Failure.Kind} (h : d.Begun d₀) (hd : d.Spares k) : d₀.Spares k :=
  fun err ⟨p, n, hn⟩ => hd err ⟨p, n, h.plan ▸ hn⟩

/-- What a call does when it is answered, unless the answer is that its event was applied before. -/
theorem serve_done {c : Call} {x : Answer} (hd : d.IsHonest) (hs : d.Spares .disbursementAlreadyExists)
    (h : g.serve c d = .ok x d') : x.isDuplicate = true ∧ d'.store = d.store ∨ Done g d.store c x d'.store := by
  have settled := serve_settled g c hd
  rw [h] at settled
  cases settled with
  | nothing hn hstore => exact .inl ⟨hn, hstore⟩
  | @done _ _ d₀ d₁ _ hb hw hstore =>
    have known : d₀.session.known.disbursements = [] := by rw [hb.session]; rfl
    have done := work_done (hb.isHonest hd) (Desk.Begun.spares hb hs) known hw
    rw [hb.session] at done
    exact .inr (hstore ▸ done)

theorem handle_done {o : Outcome} (hd : d.IsHonest) (hs : d.Spares .disbursementAlreadyExists)
    (h : (g.handle e).answer d = .ok o) :
    (Answer.handled o).isDuplicate = true ∧ ((g.serve (.handle e)).desk d).store = d.store ∨
      Done g d.store (.handle e) (.handled o) ((g.serve (.handle e)).desk d).store := by
  obtain ⟨d', hr⟩ := Work.ok_of_answer h
  have hr : g.serve (.handle e) d = .ok (.handled o) d' := Work.map_of_ok hr
  rw [Work.desk_of_ok hr]
  exact serve_done hd hs hr

end LoanLedger.Engine

/-! ## Turns -/

namespace LoanLedger

open Ledger Engine

/-- A call of an engine, disturbed in an honest way, where no fault pretends that a request was there. -/
inductive Turn.IsFair : Turn → Prop where
  | call {clock : Clock} {z : Disturbance} {g : Engine} {c : Call} :
    z.IsHonest → z.Spares .disbursementAlreadyExists → IsFair ⟨clock, z, .call g c⟩

theorem Turn.IsFair.isCall {y : Turn} (h : y.IsFair) : y.IsCall := by
  cases h with
  | call hz _ => exact .call hz

namespace Ledger

/-- A call commits nothing, or all that it did to the rows. -/
theorem turn_done {y : Turn} (hy : y.IsFair) (d : Desk) :
    (d.turn y).store = d.store ∨ ∃ g c x, Done g d.store c x (d.turn y).store := by
  cases hy with
  | @call clock z g c hz hs =>
    have settled := serve_settled g c (d := d.prepared clock z) hz
    unfold Desk.turn Job.run
    rw [desk_discard]
    cases hr : g.serve c (d.prepared clock z) with
    | error e d' =>
      rw [hr] at settled
      cases settled with
      | failed h => exact .inl (by rw [Work.desk_of_error hr]; exact h)
    | ok x d' =>
      rw [Work.desk_of_ok hr]
      rcases serve_done (d := d.prepared clock z) hz (hs.desk d clock) hr with ⟨-, h⟩ | h
      · exact .inl h
      · exact .inr ⟨g, c, x, h⟩

/-- What calls keep of the rows, whatever answers them, runs keep. -/
theorem run_keeps_done {P : Tables → Prop} {ts : List Turn} (hk : ∀ {g c x t t'}, P t → Done g t c x t' → P t')
    (hts : ∀ y ∈ ts, y.IsFair) : ∀ {d : Desk}, P d.store → P (d.after ts).store := by
  induction ts with
  | nil => exact id
  | cons y ts ih =>
    intro d hP
    refine ih (fun y hy => hts y (List.mem_cons_of_mem _ hy)) (d := d.turn y) ?_
    rcases turn_done (hts y List.mem_cons_self) d with h | ⟨g, c, x, h⟩
    · exact h ▸ hP
    · exact hk hP h

end Ledger

end LoanLedger
