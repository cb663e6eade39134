import LoanLedger.Proofs.Requests
import LoanLedger.Proofs.Rows

/-!
# Work on one loan

* `Scope` : what work on a loan has to itself: keys, the ids of its disbursements, and the ids that it draws,
  which no disbursement of the rest has;
* `S.Fits t`, `d.Within S` : the rows are those of the loan and the rest; `S.IsKeyed` : no entry of the rest has
  one of the keys;
* `Confined S` : the work leaves the rest as it is, and with the rows of the loan alone it goes in the same way
  and does the same to them;
* `query_confined`, `change_confined` : so do statements that ask for the loan and change its rows, and
  `Closed (Confined S)` : all that is composed of such work.
-/

namespace LoanLedger.Ledger

variable {α β : Type} {x y : Work α} {f : α → Work β} {a : α} {e : Error} {d d' : Desk} {t : Tables}

/-! ## Scopes -/

/-- What work on a loan has to itself. -/
structure Scope where
  loanId : String
  /-- The keys under which it looks for entries. -/
  keys : List String
  /-- The rows of the other loans. -/
  rest : Tables
  /-- The ids of the loan's disbursements, those that are drawn included. -/
  own : String → Prop
  names : List String
  /-- The numbers of the ids that are drawn: from this one on, -/
  first : Nat
  /-- and less than this one. -/
  last : Nat
  gives : ∀ n, first ≤ n → n < last → own (IdSupply.at ⟨names, first⟩ n)
  apart : ∀ x ∈ rest.disbursements, ¬ own x.id

namespace Scope

/-- The rows are those of the loan and the rest. -/
structure Fits (S : Scope) (t : Tables) : Prop where
  others : t.others S.loanId = S.rest
  own : ∀ x ∈ t.disbursements, x.loanId = S.loanId → S.own x.id

def IsKeyed (S : Scope) : Prop :=
  ∀ e ∈ S.rest.entries, ∀ key ∈ S.keys, e.key ≠ some key

variable {S : Scope}

theorem Fits.loanId_of_own (h : S.Fits t) {z : Disbursement} (hz : z ∈ t.disbursements) (ho : S.own z.id) :
    z.loanId = S.loanId := by
  apply Decidable.byContradiction
  intro hne
  have rest : z ∈ (t.others S.loanId).disbursements := List.mem_filter.mpr ⟨hz, decide_eq_true hne⟩
  rw [h.others] at rest
  exact S.apart z rest ho

theorem Fits.loanId_of_key (h : S.Fits t) (hk : S.IsKeyed) {z : Entry} (hz : z ∈ t.entries) {key : String}
    (hkey : key ∈ S.keys) (he : z.key = some key) : z.loanId = S.loanId := by
  apply Decidable.byContradiction
  intro hne
  have rest : z ∈ (t.others S.loanId).entries := List.mem_filter.mpr ⟨hz, decide_eq_true hne⟩
  rw [h.others] at rest
  exact hk z rest key hkey he

end Scope

variable {S : Scope}

/-- Committed rows and those of the session are those of the loan and the rest, and the next id is one of
those that are drawn. -/
structure Desk.Within (d : Desk) (S : Scope) : Prop where
  store : S.Fits d.store
  session : S.Fits d.session.tables
  names : d.ids.names = S.names
  first : S.first ≤ d.ids.used

def Desk.only (d : Desk) (loanId : String) : Desk :=
  { d with store := d.store.only loanId, session := { d.session with tables := d.session.tables.only loanId } }

/-- How work ended, and that it ended in the same way with the rows of the loan alone. -/
inductive Ended (S : Scope) : EStateM.Result Error Desk α → EStateM.Result Error Desk α → Prop where
  | ok {a : α} {d : Desk} {r : EStateM.Result Error Desk α} :
    d.Within S → (S.IsKeyed → r = .ok a (d.only S.loanId)) → Ended S (.ok a d) r
  | error {e : Error} {d : Desk} {r : EStateM.Result Error Desk α} :
    d.Within S → (S.IsKeyed → r = .error e (d.only S.loanId)) → Ended S (.error e d) r

/-- The work leaves the rest as it is, and goes in the same way with the rows of the loan alone, as long as it
draws no more ids than it has to itself. -/
structure Confined (S : Scope) (α : Type) (x : Work α) : Prop where
  beside : Kept Desk.Beside α x
  ended : ∀ d, d.Within S → (x.desk d).ids.used ≤ S.last → Ended S (x d) (x (d.only S.loanId))

/-! ## Composed work -/

theorem Ended.congr {r r₁ r₂ : EStateM.Result Error Desk α} (h : Ended S r r₁) (hr : S.IsKeyed → r₂ = r₁) :
    Ended S r r₂ := by
  cases h with
  | ok hd h => exact .ok hd fun hk => (hr hk).trans (h hk)
  | error hd h => exact .error hd fun hk => (hr hk).trans (h hk)

namespace Confined

theorem ok (hx : Confined S α x) (hd : d.Within S) (h : x d = .ok a d') (hu : d'.ids.used ≤ S.last) :
    d'.Within S ∧ (S.IsKeyed → x (d.only S.loanId) = .ok a (d'.only S.loanId)) := by
  have ended := hx.ended d hd (by rwa [Work.desk_of_ok h])
  rw [h] at ended
  cases ended with
  | ok hd' ha => exact ⟨hd', ha⟩

theorem error (hx : Confined S α x) (hd : d.Within S) (h : x d = .error e d') (hu : d'.ids.used ≤ S.last) :
    d'.Within S ∧ (S.IsKeyed → x (d.only S.loanId) = .error e (d'.only S.loanId)) := by
  have ended := hx.ended d hd (by rwa [Work.desk_of_error h])
  rw [h] at ended
  cases ended with
  | error hd' ha => exact ⟨hd', ha⟩

theorem within (hx : Confined S α x) (hd : d.Within S) (hu : (x.desk d).ids.used ≤ S.last) :
    (x.desk d).Within S := by
  cases h : x d with
  | ok a d₁ =>
    rw [Work.desk_of_ok h] at hu ⊢
    exact (hx.ok hd h hu).1
  | error e d₁ =>
    rw [Work.desk_of_error h] at hu ⊢
    exact (hx.error hd h hu).1

theorem alone (hx : Confined S α x) (hk : S.IsKeyed) (hd : d.Within S) (hu : (x.desk d).ids.used ≤ S.last) :
    x.answer (d.only S.loanId) = x.answer d ∧ x.desk (d.only S.loanId) = (x.desk d).only S.loanId := by
  cases h : x d with
  | ok a d₁ =>
    rw [Work.desk_of_ok h] at hu ⊢
    have ha := (hx.ok hd h hu).2 hk
    exact ⟨by rw [Work.answer, Work.answer, ha, h], Work.desk_of_ok ha⟩
  | error e d₁ =>
    rw [Work.desk_of_error h] at hu ⊢
    have ha := (hx.error hd h hu).2 hk
    exact ⟨by rw [Work.answer, Work.answer, ha, h], Work.desk_of_error ha⟩

/-- Work that goes well, leaves the rest, and does the same with the rows of the loan alone. -/
theorem of_run {g : Desk → α × Desk} (hb : ∀ d : Desk, d.Beside (g d).2)
    (hw : ∀ d, d.Within S → (g d).2.Within S)
    (ha : ∀ d, d.Within S → S.IsKeyed → g (d.only S.loanId) = ((g d).1, (g d).2.only S.loanId)) :
    Confined S α (modifyGet g) where
  beside := hb
  ended d hd _ := .ok (hw d hd) fun hk => by rw [Work.modifyGet_run, ha d hd hk]

theorem of_modify {g : Desk → Desk} (hb : ∀ d : Desk, d.Beside (g d)) (hw : ∀ d, d.Within S → (g d).Within S)
    (ha : ∀ d, d.Within S → S.IsKeyed → g (d.only S.loanId) = (g d).only S.loanId) : Confined S Unit (modify g) :=
  .of_run hb hw fun d hd hk => by rw [ha d hd hk]

/-- What is known of an answer may be used by the work that goes on with it. -/
theorem bind_of {Q : α → Prop} (hx : Confined S α x)
    (hq : ∀ d a d', d.Within S → x d = .ok a d' → d'.ids.used ≤ S.last → Q a)
    (hb : ∀ a, Kept Desk.Beside β (f a)) (hf : ∀ a, Q a → Confined S β (f a)) : Confined S β (x >>= f) where
  beside := .bind hx.beside hb
  ended d hd hu := by
    cases h : x d with
    | ok a d₁ =>
      rw [Work.desk_bind_of_ok h] at hu
      have hu₁ : d₁.ids.used ≤ S.last := Nat.le_trans (hb a d₁).used hu
      obtain ⟨hd₁, ha⟩ := hx.ok hd h hu₁
      rw [Work.bind_of_ok h]
      exact ((hf a (hq d a d₁ hd h hu₁)).ended d₁ hd₁ hu).congr fun hk => Work.bind_of_ok (ha hk)
    | error e d₁ =>
      rw [Work.desk_bind_of_error h] at hu
      obtain ⟨hd₁, ha⟩ := hx.error hd h hu
      rw [Work.bind_of_error h]
      exact .error hd₁ fun hk => Work.bind_of_error (ha hk)

theorem bind (hx : Confined S α x) (hf : ∀ a, Confined S β (f a)) : Confined S β (x >>= f) :=
  hx.bind_of (Q := fun _ => True) (fun _ _ _ _ _ _ => trivial) (fun a => (hf a).beside) fun a _ => hf a

theorem recover {handler : Error → Work α} (hx : Confined S α x) (hh : ∀ e, Confined S α (handler e)) :
    Confined S α (x.recover handler) where
  beside := .recover hx.beside fun e => (hh e).beside
  ended d hd hu := by
    cases h : x d with
    | ok a d₁ =>
      rw [Work.desk_of_ok (Work.recover_of_ok h)] at hu
      obtain ⟨hd₁, ha⟩ := hx.ok hd h hu
      rw [Work.recover_of_ok h]
      exact .ok hd₁ fun hk => Work.recover_of_ok (ha hk)
    | error e d₁ =>
      rw [Work.desk_recover_of_error h] at hu
      obtain ⟨hd₁, ha⟩ := hx.error hd h (Nat.le_trans ((hh e).beside d₁).used hu)
      rw [Work.recover_of_error h]
      exact ((hh e).ended d₁ hd₁ hu).congr fun hk => Work.recover_of_error (ha hk)

theorem attempt (hx : Confined S α x) : Confined S (Except Error α) x.attempt where
  beside := .attempt hx.beside
  ended d hd hu := by
    cases h : x d with
    | ok a d₁ =>
      rw [Work.desk_of_ok (Work.attempt_of_ok h)] at hu
      obtain ⟨hd₁, ha⟩ := hx.ok hd h hu
      rw [Work.attempt_of_ok h]
      exact .ok hd₁ fun hk => Work.attempt_of_ok (ha hk)
    | error e d₁ =>
      rw [Work.desk_of_ok (Work.attempt_of_error h)] at hu
      obtain ⟨hd₁, ha⟩ := hx.error hd h hu
      rw [Work.attempt_of_error h]
      exact .ok hd₁ fun hk => Work.attempt_of_error (ha hk)

theorem note (r : Log.Record) : Confined S Unit (note r) := by
  refine .of_modify (Kept.note r) (fun d hd => ?_) fun d _ _ => ?_
  · split
    · exact { hd with }
    · exact hd
  · change (if d.setup.passes r.level then _ else _) = Desk.only (if d.setup.passes r.level then _ else _) _
    split <;> rfl

theorem checkPasses : Confined S Bool checkPasses := by
  refine .of_run Kept.checkPasses (fun d hd => ?_) fun d _ _ => ?_
  · split
    · exact hd
    · exact hd
    · exact { hd with }
  · rcases h : d.checksLeft with _ | _ | n <;> simp only [Desk.only, h]

theorem savepoint (hs : Confined S Unit statement) (hx : Confined S α x) (hy : Confined S α y) :
    Confined S α (savepoint x y) where
  beside := .savepoint hs.beside hx.beside hy.beside
  ended d hd hu := by
    have tried : Confined S α (do let a ← x; statement; pure a) :=
      hx.bind fun a => hs.bind fun _ => ⟨fun d => .refl d, fun _ hd _ => .ok hd fun _ => rfl⟩
    cases h₁ : statement d with
    | error e d₁ =>
      have h : Ledger.savepoint x y d = .error e d₁ := Work.bind_of_error h₁
      rw [Work.desk_of_error h] at hu
      obtain ⟨hd₁, ha⟩ := hs.error hd h₁ hu
      rw [h]
      exact .error hd₁ fun hk => Work.bind_of_error (ha hk)
    | ok u d₁ =>
      cases h₂ : (do let a ← x; statement; pure a : Work α) d₁ with
      | ok a d₂ =>
        have h := savepoint_of_ok (y := y) h₁ h₂
        rw [Work.desk_of_ok h] at hu
        obtain ⟨hd₁, ha₁⟩ := hs.ok hd h₁ (Nat.le_trans (tried.beside.ok h₂).used hu)
        obtain ⟨hd₂, ha₂⟩ := tried.ok hd₁ h₂ hu
        rw [h]
        exact .ok hd₂ fun hk => savepoint_of_ok (ha₁ hk) (ha₂ hk)
      | error e d₂ =>
        -- only a conflict is taken back: what follows then has the session of before, but not the ids
        by_cases hc : e = .storage .conflict
        · subst hc
          have h := savepoint_of_conflict (y := y) h₁ h₂
          rw [Work.desk, h, ← Work.desk] at hu
          have hu₂ : d₂.ids.used ≤ S.last :=
            Nat.le_trans (hy.beside { d₂ with session := d₁.session }).used hu
          obtain ⟨hd₁, ha₁⟩ := hs.ok hd h₁ (Nat.le_trans (tried.beside.error h₂).used hu₂)
          obtain ⟨hd₂, ha₂⟩ := tried.error hd₁ h₂ hu₂
          rw [h]
          have back : Desk.Within { d₂ with session := d₁.session } S := { hd₂ with session := hd₁.session }
          exact (hy.ended _ back hu).congr fun hk => savepoint_of_conflict (ha₁ hk) (ha₂ hk)
        · have h := savepoint_of_error (y := y) h₁ h₂ hc
          rw [Work.desk_of_error h] at hu
          obtain ⟨hd₁, ha₁⟩ := hs.ok hd h₁ (Nat.le_trans (tried.beside.error h₂).used hu)
          obtain ⟨hd₂, ha₂⟩ := tried.error hd₁ h₂ hu
          rw [h]
          exact .error hd₂ fun hk => savepoint_of_error (ha₁ hk) (ha₂ hk) hc

end Confined

instance : Closed (Confined S) where
  pure a := ⟨fun d => .refl d, fun _ hd _ => .ok hd fun _ => rfl⟩
  throw e := ⟨fun d => .refl d, fun _ hd _ => .error hd fun _ => rfl⟩
  bind := .bind
  recover := .recover
  attempt := .attempt
  glance f hf := .of_run (g := fun d => (f d, d)) (fun d => .refl d) (fun _ hd => hd) fun d _ _ => by
    rw [show f (d.only S.loanId) = f d from hf d d.log d.faults d.checksLeft _ _]
  note := .note
  pass p := .of_run (fun d => Frame.pass d p) (fun _ hd => { hd with }) fun _ _ _ => rfl
  know k := .of_modify (fun d => Frame.know d _) (fun _ hd => { hd with }) fun _ _ _ => rfl
  breakSession := .of_modify (fun d => Frame.broken d) (fun _ hd => { hd with }) fun _ _ _ => rfl
  savepoint := .savepoint

instance : Holds (Confined S) freshId :=
  ⟨.of_run (fun d => Issuing.freshId d) (fun _ hd => { hd with first := Nat.le_succ_of_le hd.first })
    fun _ _ _ => rfl⟩

/-- What is known of an answer may be used by the work that goes on with it. -/
theorem Holds.bind_of {Q : α → Prop} (hx : Holds (Confined S) x)
    (hq : ∀ d a d', d.Within S → x d = .ok a d' → d'.ids.used ≤ S.last → Q a)
      (hb : ∀ a, Keeps Desk.Beside (f a))
    (hf : ∀ a, Q a → Holds (Confined S) (f a)) : Holds (Confined S) (x >>= f) :=
  ⟨hx.holds.bind_of hq (fun a => (hb a).holds) fun a ha => (hf a ha).holds⟩

theorem own_of_freshId {id : String} (hd : d.Within S) (h : freshId d = .ok id d') (hu : d'.ids.used ≤ S.last) :
    S.own id := by
  cases h
  change S.own (d.ids.at d.ids.used)
  rw [IdSupply.at_of_names (s := ⟨S.names, S.first⟩) hd.names]
  exact S.gives d.ids.used hd.first hu

/-! ## Statements -/

section Statements

variable {g : Tables → Except Error Tables}

theorem query_confined {f : Tables → α} (hf : ∀ t, S.Fits t → S.IsKeyed → f (t.only S.loanId) = f t) :
    Holds (Confined S) (query f) := by
  refine .bind inferInstance fun _ => ⟨fun d => .refl d, fun d hd _ => .ok hd fun hk => ?_⟩
  exact congrArg (EStateM.Result.ok · _) (hf d.session.tables hd.session hk)

/-- What changes the rows of the loan alone. -/
theorem rewrite_confined (hw : ∀ t t', S.Fits t → g t = .ok t' → S.Fits t')
    (ha : S.IsKeyed → ∀ t, S.Fits t → g (t.only S.loanId) = (g t).map (·.only S.loanId)) :
    Holds (Confined S) (do let t ← Work.ofExcept (g (← session).tables); setTables t) := by
  refine ⟨⟨(Holds.holds : Kept Desk.Beside _ _), fun d hd hu => ?_⟩⟩
  cases h : g d.session.tables with
  | ok t =>
    have run : (do let t ← Work.ofExcept (g (← session).tables); setTables t : Work Unit) d =
        .ok () (d.withTables t) :=
      (Work.bind_of_ok (Work.session_run d)).trans (by rw [h]; rfl)
    rw [run]
    refine .ok { hd with session := hw _ t hd.session h } fun hk => ?_
    refine (Work.bind_of_ok (Work.session_run _)).trans ?_
    rw [show g (d.only S.loanId).session.tables = .ok (t.only S.loanId) by
      rw [Desk.only, ha hk _ hd.session, h]; rfl]
    rfl
  | error e =>
    have run : (do let t ← Work.ofExcept (g (← session).tables); setTables t : Work Unit) d = .error e d :=
      (Work.bind_of_ok (Work.session_run d)).trans (by rw [h]; rfl)
    rw [run]
    refine .error hd fun hk => ?_
    refine (Work.bind_of_ok (Work.session_run _)).trans ?_
    rw [show g (d.only S.loanId).session.tables = .error e by
      rw [Desk.only, ha hk _ hd.session, h]; rfl]
    rfl

theorem change_confined (hw : ∀ t t', S.Fits t → g t = .ok t' → S.Fits t')
    (ha : S.IsKeyed → ∀ t, S.Fits t → g (t.only S.loanId) = (g t).map (·.only S.loanId)) :
    Holds (Confined S) (change g) := by
  have := rewrite_confined hw ha
  unfold change
  refine .recover (.bind inferInstance fun _ => this) fun e => inferInstance

theorem refused_confined (e : Error) : Holds (Confined S) (change fun _ => .error e) :=
  change_confined (fun _ _ _ h => by cases h) fun _ _ _ => rfl

theorem insert_confined {add : Tables → Option Tables} (hw : ∀ t t', S.Fits t → add t = some t' → S.Fits t')
    (ha : S.IsKeyed → ∀ t, S.Fits t → add (t.only S.loanId) = (add t).map (·.only S.loanId)) :
    Holds (Confined S) (insert add) := by
  refine change_confined (fun t t' h ht => ?_) fun hk t h => ?_
  · split at ht <;> cases ht
    exact hw t t' h (by assumption)
  · rw [ha hk t h]
    cases add t <;> rfl

end Statements

/-! ## Transactions -/

namespace Confined

theorem commit : Confined S Unit commit := by
  have store : Holds (Confined S) (modify fun d => { d with store := d.session.tables } : Work Unit) :=
    ⟨.of_modify (fun d => { Desk.Beside.refl d with }) (fun _ hd => { hd with store := hd.session })
      fun _ _ _ => rfl⟩
  exact (Holds.call (.peek (P := Confined S) (g := Session.isBroken) (f := fun isBroken => do
    if isBroken then throw (.storage .abandoned)
    modify fun d => { d with store := d.session.tables }) fun _ _ => rfl)).holds

theorem withContext (fields : List (String × Value)) (hx : Confined S α x) :
    Confined S α (withContext fields x) := by
  refine ⟨Bracketed.withContext fields hx.beside, fun d hd hu => ?_⟩
  have hb : (d.bound fields).Within S := { hd with }
  cases h : x (d.bound fields) with
  | ok a d₁ =>
    rw [Work.desk_of_ok (withContext_of_ok h)] at hu
    obtain ⟨hd₁, ha⟩ := hx.ok hb h hu
    rw [withContext_of_ok h]
    exact .ok { hd₁ with } fun hk => withContext_of_ok (d := d.only S.loanId) (ha hk)
  | error e d₁ =>
    rw [Work.desk_of_error (withContext_of_error h)] at hu
    obtain ⟨hd₁, ha⟩ := hx.error hb h hu
    rw [withContext_of_error h]
    exact .error { hd₁ with } fun hk => withContext_of_error (d := d.only S.loanId) (ha hk)

theorem withLock (loanId : String) (timeout : Value) (hx : Confined S α x) :
    Confined S α (Engine.withLock loanId timeout x) := by
  refine ⟨Bracketed.withLock loanId timeout hx.beside, fun d hd hu => ?_⟩
  cases hl : (d.locks.hold loanId timeout).2 with
  | error r =>
    have refused : Holds (Confined S) (Engine.lockFailed loanId timeout r : Work α) := inferInstance
    rw [Work.desk, withLock_refused hl] at hu
    rw [withLock_refused hl]
    exact (refused.holds.ended d hd hu).congr fun _ => withLock_refused (d := d.only S.loanId) hl
  | ok u =>
    have hb : (d.held loanId timeout).Within S := { hd with }
    cases h : x (d.held loanId timeout) with
    | ok a d₁ =>
      rw [Work.desk_of_ok (withLock_of_ok hl h)] at hu
      obtain ⟨hd₁, ha⟩ := hx.ok hb h hu
      rw [withLock_of_ok hl h]
      exact .ok { hd₁ with } fun hk => withLock_of_ok (d := d.only S.loanId) hl (ha hk)
    | error e d₁ =>
      rw [Work.desk_of_error (withLock_of_error hl h)] at hu
      obtain ⟨hd₁, ha⟩ := hx.error hb h hu
      rw [withLock_of_error hl h]
      exact .error { hd₁ with } fun hk => withLock_of_error (d := d.only S.loanId) hl (ha hk)

end Confined

instance : Bracketed (Confined S) where
  begin := .of_modify (fun d => Wide.session d _) (fun _ hd => { hd with session := hd.store }) fun _ _ _ => rfl
  checkPasses := .checkPasses
  commit := .commit
  withContext := .withContext
  withLock := .withLock

end LoanLedger.Ledger
