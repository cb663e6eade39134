import LoanLedger.Proofs.Following
import LoanLedger.Proofs.Scope

/-!
# Calls are work on one loan

Every operation on a loan is confined to it: to its rows, the keys under which it looks for entries, and the
ids that it draws; and so is every call of the engine (`serve_confined`).
-/

set_option synthInstance.maxSize 1000

namespace LoanLedger.Ledger

variable {S : Scope} {α : Type} {d d' : Desk} {t t' : Tables} {loanId : String}

/-! ## Rows of the loan -/

namespace Scope

theorem Fits.of_others (h : S.Fits t) (ho : t'.others S.loanId = t.others S.loanId)
    (hd : t'.disbursements = t.disbursements) : S.Fits t' where
  others := ho.trans h.others
  own x hx := h.own x (hd ▸ hx)

theorem Fits.addLoan {l : Loan} (h : S.Fits t) (hl : l.loanId = S.loanId) (ha : t.addLoan? l = some t') :
    S.Fits t' := by
  refine h.of_others (Tables.addLoan_outside (by simpa using hl) ha) ?_
  obtain ⟨-, rfl⟩ := Tables.addLoan?_eq_some.mp ha
  rfl

theorem Fits.addEntry {e : Entry} (h : S.Fits t) (he : e.loanId = S.loanId) (ha : t.addEntry? e = some t') :
    S.Fits t' := by
  refine h.of_others (Tables.addEntry_outside (by simpa using he) ha) ?_
  obtain ⟨-, rfl⟩ := Tables.addEntry?_eq_some.mp ha
  rfl

theorem Fits.addCounter {c : Counter} (h : S.Fits t) (hc : c.name = Sequence.ofLoan S.loanId)
    (ha : t.addCounter? c = some t') : S.Fits t' := by
  refine h.of_others (Tables.addCounter_outside (by simpa using hc) ha) ?_
  obtain ⟨-, rfl⟩ := Tables.addCounter?_eq_some.mp ha
  rfl

theorem Fits.addDisbursement {x : Disbursement} (h : S.Fits t) (hx : x.loanId = S.loanId) (ho : S.own x.id)
    (ha : t.addDisbursement? x = some t') : S.Fits t' where
  others := (Tables.addDisbursement_outside (by simpa using hx) ha).trans h.others
  own y hy hl := by
    obtain ⟨-, rfl⟩ := Tables.addDisbursement?_eq_some.mp ha
    rcases List.mem_append.mp hy with hy | hy
    · exact h.own y hy hl
    · rwa [List.mem_singleton.mp hy]

theorem Fits.changeDisbursement {id : String} {change : Disbursement → Disbursement} (h : S.Fits t) (ho : S.own id)
    (hl : ∀ x, (change x).loanId = x.loanId) (hi : ∀ x, (change x).id = x.id) :
    S.Fits (t.changeDisbursement id change) where
  others := by
    refine (Tables.changeDisbursement_outside hl fun x hx hid => ?_).trans h.others
    simpa using h.loanId_of_own hx (hid ▸ ho)
  own y hy hyl := by
    obtain ⟨x, hx, rfl⟩ := List.mem_map.mp hy
    split at hyl
    · next hid =>
      rw [if_pos hid, hi]
      exact h.own x hx ((hl x).symm.trans hyl)
    · next hid =>
      rw [if_neg hid]
      exact h.own x hx hyl

end Scope

/-! ## Sequences -/

namespace Sequence

instance : Holds (Confined S) (locked (ofLoan S.loanId)) :=
  .call (query_confined fun _ _ _ => Tables.select_counter? (decide_eq_true rfl))

theorem locked_name {name : String} {o : Option Counter} (h : locked name d = .ok o d') :
    ∀ c ∈ o, c.name = name := by
  intro c hc
  rcases call_ok h with h | ⟨-, rfl, -⟩
  · obtain ⟨rfl, -⟩ := query_ok h
    simpa using List.find?_some hc
  · cases hc

theorem raise_confined {c : Counter} (hc : c.name = ofLoan S.loanId) : Holds (Confined S) (raise c) := by
  have : Holds (Confined S) (change fun t =>
      if Column.fitsInteger (c.value + 1) then .ok (t.setCounter c.name (c.value + 1)) else .error .tooLarge) := by
    refine change_confined (fun t t' h ht => ?_) fun _ t _ => ?_
    · split at ht <;> cases ht
      exact h.of_others (Tables.setCounter_outside (by simpa using hc) t _) rfl
    · split
      · exact congrArg Except.ok (Tables.select_setCounter t _ _).symm
      · rfl
  unfold raise noteAllocated
  infer_instance

instance : Holds (Confined S) (afterRace (ofLoan S.loanId)) := by
  refine .bind inferInstance fun _ => .bind_of inferInstance (fun _ _ _ _ h _ => locked_name h)
    (fun o => by cases o <;> infer_instance) fun o ho => ?_
  cases o with
  | none => infer_instance
  | some c => exact raise_confined (ho c rfl)

instance : Holds (Confined S) (next (ofLoan S.loanId)) := by
  have : Holds (Confined S) (insert (·.addCounter? ⟨ofLoan S.loanId, 1⟩)) :=
    insert_confined (fun _ _ h => h.addCounter rfl) fun _ _ _ => Tables.select_addCounter (decide_eq_true rfl)
  unfold next noteAllocated
  refine .bind_of inferInstance (fun _ _ _ _ h _ => locked_name h)
    (fun o => by cases o <;> infer_instance) fun o ho => ?_
  cases o with
  | none => infer_instance
  | some c => exact raise_confined (ho c rfl)

end Sequence

/-! ## The audit log -/

namespace AuditLog

variable {r : AuditRecord} {key : String}

theorem stored?_place {e row : Entry} (h : e.stored? = some row) :
    row.loanId = e.loanId ∧ row.key = e.key := by
  obtain ⟨_, -, h⟩ := Option.bind_eq_some_iff.mp h
  obtain ⟨_, -, h⟩ := Option.bind_eq_some_iff.mp h
  obtain ⟨_, -, h⟩ := Option.bind_eq_some_iff.mp h
  cases h
  exact ⟨rfl, rfl⟩

theorem store_confined {e : Entry} (he : e.loanId = S.loanId) (hk : ∀ key, e.key = some key → key ∈ S.keys) :
    Holds (Confined S) (store e) := by
  refine .bind ?_ fun _ => inferInstance
  cases hr : e.stored? with
  | none => exact refused_confined _
  | some row =>
    obtain ⟨hl, hkey⟩ := stored?_place hr
    dsimp only
    cases Column.fitsInteger row.seq with
    | false => exact refused_confined .tooLarge
    | true =>
      exact insert_confined (fun _ _ h => h.addEntry (hl.trans he)) fun hkeyed t h =>
        Tables.select_addEntry (decide_eq_true (hl.trans he)) fun x hx k hrow hxk =>
          decide_eq_true (h.loanId_of_key hkeyed hx (hk k (hkey ▸ hrow)) hxk)

theorem next_confined (hr : ∀ key, r.key = some key → key ∈ S.keys) : Holds (Confined S) (next S.loanId r) := by
  have newest : Holds (Confined S) (query (·.newest? S.loanId)) :=
    query_confined fun _ _ _ => Tables.select_newest? (decide_eq_true rfl)
  refine .bind inferInstance fun seq => .bind newest fun last => .bind inferInstance fun timestamp =>
    .bind inferInstance fun time => .bind inferInstance fun recordedAt => ?_
  cases hs : (draft S.loanId seq r timestamp recordedAt).sealed? (last.map (·.hash)) with
  | error x => exact (inferInstance : Holds (Confined S) (throw (.content x) : Work Entry))
  | ok e =>
    obtain ⟨-, payloadHash, hash, he⟩ := Entry.sealed?_eq hs
    have stored : Holds (Confined S) (store e) :=
      store_confined (by rw [he]; rfl) fun key hk => hr key (by rw [← hk, he]; rfl)
    change Holds (Confined S) (do store e; pure e)
    exact .bind stored fun _ => inferInstance

instance (f : Tables → List Entry) [h : Holds (Confined S) (query f)] : Holds (Confined S) (ask f) :=
  .bind h fun rows => .peek (g := Session.known) (f := fun known => pure (rows.map (recalled known))) fun _ _ => rfl

theorem findTransition_confined (hk : key ∈ S.keys) : Holds (Confined S) (findTransition key) := by
  have : Holds (Confined S) (query fun t => (t.entryByKey? key).toList) := query_confined fun t h hkeyed => by
    rw [show (t.only S.loanId).entryByKey? key = t.entryByKey? key from
      Tables.select_entryByKey? fun e he hek => decide_eq_true (h.loanId_of_key hkeyed he hk hek)]
  unfold findTransition
  infer_instance

theorem afterConflict_confined (hk : key ∈ S.keys) : Holds (Confined S) (afterConflict S.loanId key) := by
  refine .bind (findTransition_confined hk) fun found => ?_
  cases found <;> infer_instance

theorem append_confined (hr : ∀ key, r.key = some key → key ∈ S.keys) :
    Holds (Confined S) (append S.loanId r) := by
  have := next_confined hr
  unfold append
  cases hk : r.key with
  | none => infer_instance
  | some key =>
    have := afterConflict_confined (hr key hk)
    infer_instance

theorem append_unkeyed (hr : r.key = none) : Holds (Confined S) (append S.loanId r) :=
  append_confined fun key hk => by rw [hr] at hk; cases hk

end AuditLog

/-! ## Loans -/

namespace Loans

instance (fresh : Bool) : Holds (Confined S) (get S.loanId fresh) := by
  have : Holds (Confined S) (query (·.loan? S.loanId)) :=
    query_confined fun _ _ _ => Tables.select_loan? (decide_eq_true rfl)
  refine .call (.guarded (.bind this fun found => ?_))
  cases found with
  | none => infer_instance
  | some row =>
    exact .peek (P := Confined S) (g := Session.known) (f := fun k => do
      let l := if fresh then row else (k.loans.find? (·.loanId = S.loanId)).getD row
      know (remember l)
      pure (some l)) fun _ _ => rfl

instance (fresh : Bool) : Holds (Confined S) (require S.loanId fresh) := by
  refine .bind inferInstance fun found => ?_
  cases found <;> infer_instance

theorem add_confined {l : Loan} (hl : l.loanId = S.loanId) : Holds (Confined S) (add l) := by
  refine .bind ?_ fun _ => inferInstance
  cases Column.fitsInteger l.definitionVersion with
  | false => exact refused_confined .tooLarge
  | true =>
    exact insert_confined (fun _ _ h => h.addLoan hl) fun _ _ _ => Tables.select_addLoan (decide_eq_true hl)

instance (founderId : String) (x : Workflow.Definition) (actor : String) :
    Holds (Confined S) (open_ S.loanId founderId x actor) := by
  have := add_confined (S := S) (l := initial S.loanId founderId x) rfl
  have recorded (time : Calendar.Timestamp) := AuditLog.append_unkeyed (S := S)
    (r := openingRecord founderId actor x time) rfl
  unfold open_
  dsimp only
  infer_instance

theorem changeLoan_confined (change : Loan → Loan) (hc : ∀ l, (change l).loanId = l.loanId) :
    (∀ t, S.Fits t → S.Fits (t.changeLoan S.loanId change)) ∧
      ∀ t : Tables, (t.only S.loanId).changeLoan S.loanId change = (t.changeLoan S.loanId change).only S.loanId :=
  ⟨fun t h => h.of_others (Tables.changeLoan_outside hc t (by simp)) rfl,
    fun t => (Tables.select_changeLoan hc t S.loanId).symm⟩

instance : Holds (Confined S) (bump S.loanId) := by
  obtain ⟨fits, only⟩ := changeLoan_confined (S := S) (fun l => { l with version := l.version + 1 }) fun _ => rfl
  exact rewrite_confined (g := fun t => .ok (t.changeLoan S.loanId fun l => { l with version := l.version + 1 }))
    (fun t t' h ht => by cases ht; exact fits t h) fun _ t _ => congrArg Except.ok (only t)

instance : Holds (Confined S) (giveWay S.loanId) := by
  unfold giveWay
  infer_instance

theorem write_confined {l : Loan} (hl : l.loanId = S.loanId) (state : String) : Holds (Confined S) (write l state) := by
  have : Holds (Confined S) (change fun t =>
      if (t.loan? l.loanId).any (·.version = l.version) then
        .ok (t.changeLoan l.loanId fun row => { row with state, version := l.version + 1 })
      else .error (.storage .stale)) := by
    obtain ⟨fits, only⟩ :=
      changeLoan_confined (S := S) (fun row => { row with state, version := l.version + 1 }) fun _ => rfl
    rw [hl]
    refine change_confined (fun t t' h ht => ?_) fun _ t _ => ?_
    · split at ht <;> cases ht
      exact fits t h
    · rw [show (t.only S.loanId).loan? S.loanId = t.loan? S.loanId from Tables.select_loan? (decide_eq_true rfl), only]
      split <;> rfl
  unfold write
  infer_instance

instance (state : String) (expected : Option String) : Holds (Confined S) (updateState S.loanId state expected) := by
  unfold updateState
  refine .bind inferInstance fun _ => .call (.bind_of inferInstance (fun _ _ _ _ h _ => (require_ok h).2.1)
    (fun l => ?_) fun l hl => ?_)
  · have := write_holds (inferInstance : Keeps Desk.Beside (write l state))
    dsimp only
    infer_instance
  · have := write_holds (write_confined hl state)
    dsimp only
    infer_instance

end Loans

/-! ## Disbursements -/

namespace Disbursements

variable {x : Disbursement} {id : String}

instance (kind : Tranche) : Holds (Confined S) (find S.loanId kind) := by
  have : Holds (Confined S) (query (·.disbursementFor? S.loanId kind)) :=
    query_confined fun _ _ _ => Tables.select_disbursementFor? (decide_eq_true rfl) kind
  refine .call (.guarded (.bind this fun found => ?_))
  cases found <;> dsimp only <;> infer_instance

instance (id : String) : Holds (Confined S) (get S.loanId id) := by
  have : Holds (Confined S) (query (·.disbursement? S.loanId id)) :=
    query_confined fun _ _ _ => Tables.select_disbursement? (decide_eq_true rfl) id
  refine .bind (.guarded this) fun found => ?_
  cases found with
  | none => infer_instance
  | some row => exact .peek (P := Confined S) (g := Session.known) (f := fun k => pure (recalled k row)) fun _ _ => rfl

/-- The request of the loan has an id of the loan. -/
theorem own_of_get (hd : d.Within S) (h : get S.loanId id d = .ok x d') : S.own x.id := by
  obtain ⟨found, d₁, hq, h⟩ := Work.bind_ok h
  obtain ⟨rfl, -⟩ := query_ok (guarded_ok hq)
  cases hf : d.session.tables.disbursement? S.loanId id with
  | none => rw [hf] at h; cases h
  | some row =>
    rw [hf] at h
    cases h
    rw [recalled_id]
    have hl : row.loanId = S.loanId := by simpa using And.left (by simpa using List.find?_some hf)
    exact hd.session.own row (List.mem_of_find?_eq_some hf) hl

theorem add_confined (hl : x.loanId = S.loanId) (ho : S.own x.id) : Holds (Confined S) (add x) := by
  refine .bind ?_ fun _ => inferInstance
  cases hr : x.stored? with
  | error e => exact refused_confined _
  | ok row =>
    have hl : row.loanId = S.loanId := (stored?_loanId hr).trans hl
    have ho : S.own row.id := (stored?_id hr).symm ▸ ho
    exact insert_confined (fun _ _ h => h.addDisbursement hl ho) fun _ t h =>
      Tables.select_addDisbursement (decide_eq_true hl) fun y hy hid =>
        decide_eq_true (h.loanId_of_own hy (hid ▸ ho))

instance (kind : Tranche) : Holds (Confined S) (submit S.loanId kind) := by
  refine .bind inferInstance fun found => ?_
  cases found with
  | some y => infer_instance
  | none =>
    exact .bind_of inferInstance (fun _ _ _ => own_of_freshId) (fun id => drawn_holds fun _ => inferInstance)
      fun id ho => drawn_holds fun _ => add_confined rfl ho

instance (failure : Failure) : Holds (Confined S) (existing S.loanId failure) := by
  unfold existing
  infer_instance

instance (kind : Tranche) : Holds (Confined S) (request S.loanId kind) := requested_holds

theorem pay_confined (ho : S.own x.id) (time : Calendar.Timestamp) : Holds (Confined S) (pay x time) := by
  unfold pay
  cases Column.keepTime? time with
  | error e =>
    have := refused_confined (S := S) (.storage .unstorable)
    infer_instance
  | ok paidAt =>
    let mark (row : Disbursement) : Disbursement := { row with status := .paid, paidAt := some paidAt }
    have kept (row : Disbursement) : (mark row).loanId = row.loanId := rfl
    have only (t : Tables) : (t.only S.loanId).changeDisbursement x.id mark =
        (t.changeDisbursement x.id mark).only S.loanId :=
      (Tables.select_changeDisbursement kept t x.id).symm
    have : Holds (Confined S) (change fun t => .ok (t.changeDisbursement x.id mark)) := by
      refine change_confined (fun t t' h ht => ?_) fun _ t _ => congrArg Except.ok (only t)
      cases ht
      exact h.changeDisbursement ho kept fun _ => rfl
    infer_instance

instance (id actor : String) : Holds (Confined S) (markPaid S.loanId id actor) := by
  refine .bind_of inferInstance (fun _ _ _ hd h _ => own_of_get hd h) (fun x => inferInstance) fun x ho => ?_
  have (time : Calendar.Timestamp) := pay_confined ho time
  have (time : Calendar.Timestamp) := AuditLog.append_unkeyed (S := S) (r := paymentRecord x actor time) rfl
  infer_instance

end Disbursements

end LoanLedger.Ledger

/-! ## The engine -/

namespace LoanLedger.Engine

open Ledger

variable {S : Scope}

theorem handle_confined (g : Engine) {e : Event} (he : e.loanId = S.loanId) (hk : e.key ∈ S.keys) :
    Holds (Confined S) (g.handle e) := by
  have : Holds (Confined S) (Loans.require e.loanId true) := by rw [he]; infer_instance
  have (state : String) (expected : Option String) :
      Holds (Confined S) (Loans.updateState e.loanId state expected) := by
    rw [he]; infer_instance
  have (kind : Tranche) : Holds (Confined S) (Disbursements.request e.loanId kind) := by rw [he]; infer_instance
  have recorded (r : AuditRecord) (hr : ∀ key, r.key = some key → key ∈ S.keys) :
      Holds (Confined S) (AuditLog.append e.loanId r) := by rw [he]; exact AuditLog.append_confined hr
  have (state : String) := recorded (ignoredRecord e state) nofun
  have (a b : String) := recorded (transitionRecord e a b) fun key h => by cases h; exact hk
  have (task : Task) (x : Disbursement) := recorded (requestRecord task x) nofun
  have (task : Task) := recorded (unknownRecord task) nofun
  have := AuditLog.findTransition_confined hk
  infer_instance

/-- A call is work on its loan: it leaves the rest as it is, and goes in the same way with the rows of the loan
alone, unless an entry of the rest has the key of its event. -/
theorem serve_confined (g : Engine) {c : Call} (hl : c.loanId = S.loanId)
    (hk : ∀ e, c = .handle e → e.key ∈ S.keys) : Holds (Confined S) (g.serve c) := by
  cases c with
  | open_ loanId founderId actor =>
    cases hl
    unfold serve openLoan
    infer_instance
  | handle e =>
    have := handle_confined g hl (hk e rfl)
    unfold serve
    infer_instance
  | pay loanId id actor =>
    cases hl
    unfold serve markPaid
    infer_instance

end LoanLedger.Engine
