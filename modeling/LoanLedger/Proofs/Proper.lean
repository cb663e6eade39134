import LoanLedger.Proofs.Rising

/-!
# Attributes are proper

Where every binary fraction that is handed in is a number of the format, so is every one in the log:

* `isProper_toValue`, `Entry.IsProper.stored` : what is read back of a proper entry is proper;
* `Desk.AddsProper` : each entry that was added is proper. Every call of an engine keeps that, and so does every block
  that appends proper attributes;
* `after_proper` : so every entry is proper after every run of such.
-/

namespace LoanLedger

/-! ## Values that are read back -/

theorem Value.isProper_ofPairs {ps : List (Value × Value)} (h : Value.HaveProper ps) :
    (Value.ofPairs ps).IsProper :=
  Value.haveProper_iff.mpr (Entries.forall_ofPairs (P := fun k => ∃ s, k = .text s) (Value.haveProper_iff.mp h))

namespace Json

open JsonOf (AreProper HaveProper)

mutual

theorem isProper_toValue (j : Json) (h : j.IsProper) : j.toValue.IsProper := by
  cases j with
  | null | bool | int | text => rw [toValue]; trivial
  | float x => rw [toValue]; exact h
  | list js => rw [toValue]; exact areProper_toValues js h
  | object ms => rw [toValue]; exact Value.isProper_ofPairs (haveProper_toPairs ms h)
termination_by structural j

theorem areProper_toValues (js : List Json) (h : AreProper js) : Value.AreProper (toValues js) := by
  cases js with
  | nil => rw [toValues]; trivial
  | cons j js =>
    rw [toValues]
    exact ⟨isProper_toValue j h.1, areProper_toValues js h.2⟩
termination_by structural js

theorem haveProper_toPairs (ms : List (String × Json)) (h : HaveProper ms) : Value.HaveProper (toPairs ms) := by
  cases ms with
  | nil => rw [toPairs]; trivial
  | cons m ms =>
    obtain ⟨name, j⟩ := m
    rw [toPairs]
    exact ⟨⟨name, rfl⟩, isProper_toValue j h.1, haveProper_toPairs ms h.2⟩
termination_by structural ms

end

end Json

namespace Ledger

variable {d d' : Desk} {t t' : Tables} {loanId : String} {e row : Entry} {r : AuditRecord}

theorem Entry.IsProper.stored (he : e.IsProper) (h : e.stored? = some row) : row.IsProper := by
  obtain ⟨as, ha, has⟩ := he
  obtain ⟨timestamp, recordedAt, j, hj, rfl⟩ := Entry.stored?_row h
  rw [ha] at hj
  have texts : AreTexts as := fun p hp => (Value.haveProper_iff.mp has p hp).1
  have proper : j.IsProper :=
    Json.isProper_of_ofValue Json.storage_writesTexts (.map as) (Value.HaveProper.haveNumbers as has) hj
  obtain ⟨ms, rfl, -⟩ := Json.perm_of_ofValue_map texts hj
  exact ⟨_, by rw [Json.toValue]; rfl, Value.isProper_ofPairs (Json.haveProper_toPairs ms proper)⟩

/-! ## Records -/

/-- The attributes of what is recorded are JSON values under text keys, each binary fraction in them a number of the
format. -/
def AuditRecord.IsProper (r : AuditRecord) : Prop := Value.HaveProper r.attributes

def Desk.AddsProper (d d' : Desk) : Prop :=
  ∀ e ∈ d'.session.tables.entries, e ∈ d.session.tables.entries ∨ e.IsProper

theorem Desk.AddsProper.of_entries (h : d'.session.tables.entries = d.session.tables.entries) : d.AddsProper d' :=
  fun _ he => .inl (h ▸ he)

instance : Frame Desk.AddsProper where
  refl _ := .of_entries rfl
  trans h h' e he := (h' e he).elim (h e) .inr
  log _ _ := .of_entries rfl
  pass _ _ := .of_entries rfl
  know _ _ := .of_entries rfl
  broken _ := .of_entries rfl
  check _ _ _ := .of_entries rfl
  back _ := .of_entries rfl

instance : Issuing Desk.AddsProper where
  freshId _ := .of_entries rfl

theorem change_adds {g : Tables → Except Error Tables} (hg : ∀ t t', g t = .ok t' → t'.entries = t.entries) :
    Keeps Desk.AddsProper (change g) :=
  change_keeps fun _ t' ht => .of_entries (hg _ t' ht)

theorem insert_adds {g : Tables → Option Tables} (hg : ∀ t t', g t = some t' → t'.entries = t.entries) :
    Keeps Desk.AddsProper (insert g) := by
  refine change_adds fun t t' ht => ?_
  split at ht
  · next h =>
    cases ht
    exact hg t _ h
  · cases ht

/-! ## Numbers and entries -/

namespace Sequence

instance (c : Counter) : Keeps Desk.AddsProper (raise c) := by
  have := change_adds (g := fun t =>
      if Column.fitsInteger (c.value + 1) then .ok (t.setCounter c.name (c.value + 1))
        else .error .tooLarge) fun t t' ht => by
    split at ht <;> cases ht
    rfl
  unfold raise
  infer_instance

instance (name : String) : Keeps Desk.AddsProper (next name) := by
  have : Keeps Desk.AddsProper (insert (·.addCounter? ⟨name, 1⟩)) := insert_adds fun t t' ht => by
    obtain ⟨-, rfl⟩ := Tables.addCounter?_eq_some.mp ht
    rfl
  have : Keeps Desk.AddsProper (afterRace name) := .bind inferInstance fun _ => .bind inferInstance fun c => by
    cases c <;> infer_instance
  exact .bind inferInstance fun c => by cases c <;> infer_instance

end Sequence

namespace AuditLog

theorem store_adds (he : e.IsProper) : Keeps Desk.AddsProper (store e) := by
  refine .bind (change_keeps fun d t' ht => ?_) fun _ => inferInstance
  split at ht
  · cases ht
  · next row hrow =>
    split at ht
    · cases ht
    · split at ht
      · next ha =>
        cases ht
        obtain ⟨-, rfl⟩ := Tables.addEntry?_eq_some.mp ha
        intro x hx
        rcases List.mem_append.mp hx with hx | hx
        · exact .inl hx
        · rw [List.mem_singleton.mp hx]
          exact .inr (he.stored hrow)
      · cases ht

/-- Where the result is known, what follows has to keep the relation for it alone. -/
theorem ofExcept_bind_keeps {α β : Type} {R : Desk → Desk → Prop} [Frame R] {x : Except Error α}
    {f : α → Work β} (hf : ∀ a, x = .ok a → Keeps R (f a)) : Keeps R (Work.ofExcept x >>= f) := by
  refine ⟨fun d => ?_⟩
  cases x with
  | error y =>
    have failed : Work.ofExcept (.error y : Except Error α) d = .error y d := rfl
    rw [Work.desk_bind_of_error failed]
    exact Frame.refl d
  | ok a =>
    have given : Work.ofExcept (.ok a : Except Error α) d = .ok a d := rfl
    rw [Work.desk_bind_of_ok given]
    exact (hf a rfl).holds d

theorem append_adds (loanId : String) (hr : r.IsProper) : Keeps Desk.AddsProper (append loanId r) := by
  have : Keeps Desk.AddsProper (next loanId r) := by
    refine .bind inferInstance fun seq => .bind inferInstance fun last => .bind inferInstance fun timestamp =>
      .bind inferInstance fun time => .bind inferInstance fun recordedAt => ofExcept_bind_keeps fun e he => ?_
    obtain ⟨-, payloadHash, hash, h⟩ := Entry.sealed?_eq (mapError_ok he)
    have proper : e.IsProper := ⟨r.attributes, by rw [h]; rfl, hr⟩
    have := store_adds proper
    infer_instance
  infer_instance

end AuditLog

/-! ## Loans and disbursements -/

theorem Keeps.adds {α : Type} {x : Work α} [Keeps Desk.SameLogs x] : Keeps Desk.AddsProper x where
  holds d := .of_entries ((Holds.holds : Kept Desk.SameLogs α x) d).entries

instance (l : Loan) : Keeps Desk.AddsProper (Loans.add l) := Keeps.adds

instance (loanId : String) : Keeps Desk.AddsProper (Loans.bump loanId) := Keeps.adds

instance (l : Loan) (state : String) : Keeps Desk.AddsProper (Loans.write l state) := Keeps.adds

instance (x : Disbursement) : Keeps Desk.AddsProper (Disbursements.add x) := Keeps.adds

instance (x : Disbursement) (paidAt : Calendar.Timestamp) : Keeps Desk.AddsProper (Disbursements.pay x paidAt) :=
  Keeps.adds

/-! ## Calls -/

section Records

open Engine

instance (loanId founderId actor : String) (x : Workflow.Definition) (time : Calendar.Timestamp) :
    Keeps Desk.AddsProper (AuditLog.append loanId (Loans.openingRecord founderId actor x time)) :=
  AuditLog.append_adds _ (by simp [AuditRecord.IsProper, Loans.openingRecord, Value.HaveProper, Value.IsProper])

instance (loanId actor : String) (x : Disbursement) (time : Calendar.Timestamp) :
    Keeps Desk.AddsProper (AuditLog.append loanId (Disbursements.paymentRecord x actor time)) :=
  AuditLog.append_adds _ (by simp [AuditRecord.IsProper, Disbursements.paymentRecord, Value.HaveProper, Value.IsProper])

instance (loanId : String) (task : Task) (x : Disbursement) :
    Keeps Desk.AddsProper (AuditLog.append loanId (requestRecord task x)) :=
  AuditLog.append_adds _ (by simp [AuditRecord.IsProper, requestRecord, Value.HaveProper, Value.IsProper])

instance (loanId : String) (task : Task) : Keeps Desk.AddsProper (AuditLog.append loanId (unknownRecord task)) :=
  AuditLog.append_adds _ (by simp [AuditRecord.IsProper, unknownRecord, Value.HaveProper, Value.IsProper])

instance (loanId : String) (e : Event) (state : String) :
    Keeps Desk.AddsProper (AuditLog.append loanId (ignoredRecord e state)) :=
  AuditLog.append_adds _ (by simp [AuditRecord.IsProper, ignoredRecord, Value.HaveProper, Value.IsProper])

instance (loanId : String) (e : Event) (a b : String) :
    Keeps Desk.AddsProper (AuditLog.append loanId (transitionRecord e a b)) :=
  AuditLog.append_adds _ (by simp [AuditRecord.IsProper, transitionRecord, Value.HaveProper, Value.IsProper])

/-- Whatever an engine records is proper. -/
instance (g : Engine) (c : Call) : Keeps Desk.AddsProper (g.work c) := by
  cases c with
  | open_ loanId founderId actor => unfold work; infer_instance
  | handle e => unfold work; exact .bind inferInstance fun r => by cases r <;> infer_instance
  | pay loanId id actor => unfold work; infer_instance

end Records

/-! ## Turns -/

/-- A caller who appends proper attributes. -/
inductive Block.IsProper : Block Unit → Prop where
  | done (u : Unit) : IsProper (.done u)
  | fail (e : Error) : IsProper (.fail e)
  | append (loanId : String) (r : AuditRecord) (next : Except Error (Option Entry) → Block Unit) :
    r.IsProper → (∀ o, IsProper (next o)) → IsProper (.step (.append loanId r) next)

theorem Block.IsProper.adds {b : Block Unit} (h : b.IsProper) : Keeps Desk.AddsProper b.run := by
  induction h with
  | done u => exact inferInstanceAs (Keeps Desk.AddsProper (pure u : Work Unit))
  | fail e => exact inferInstanceAs (Keeps Desk.AddsProper (throw e : Work Unit))
  | append loanId r next hr _ ih =>
    have : Keeps Desk.AddsProper (Op.append loanId r).run := AuditLog.append_adds loanId hr
    exact .bind inferInstance ih

end Ledger

/-- A call of an engine, or a block that appends proper attributes. -/
inductive Turn.IsProper : Turn → Prop where
  | call {clock : Clock} {x : Disturbance} {g : Engine} {c : Engine.Call} : IsProper ⟨clock, x, .call g c⟩
  | block {clock : Clock} {x : Disturbance} {b : Ledger.Block Unit} : b.IsProper → IsProper ⟨clock, x, .block b⟩

namespace Ledger

def Tables.IsProper (t : Tables) : Prop := ∀ e ∈ t.entries, e.IsProper

theorem Desk.AddsProper.isProper {d d' : Desk} (h : d.AddsProper d') (hd : d.session.tables.IsProper) :
    d'.session.tables.IsProper :=
  fun e he => (h e he).elim (hd e) id

theorem turn_proper {d : Desk} {x : Turn} (hx : x.disturbance.IsHonest) (hp : x.IsProper) (h : d.store.IsProper) :
    (d.turn x).store.IsProper := by
  cases hp with
  | @call clock z g c =>
    unfold Desk.turn Job.run
    rw [desk_discard]
    rcases (Engine.serve_settled g c (d := d.prepared clock z) hx).store with hs | ⟨d₀, a, d₁, hb, hw, hs⟩
    · rw [hs]
      exact h
    · have added : d₀.AddsProper d₁ := Keeps.ok hw
      rw [hs]
      exact added.isProper (by rw [hb.session]; exact h)
  | @block clock z b hb =>
    unfold Desk.turn Job.run
    rcases (scope_settled b (d := d.prepared clock z) hx).store with hs | ⟨d₀, a, d₁, hb₀, hw, hs⟩
    · rw [hs]
      exact h
    · obtain ⟨u, hr, -⟩ := Work.map_ok hw
      have := hb.adds
      have added : d₀.AddsProper d₁ := Keeps.ok hr
      rw [hs]
      exact added.isProper (by rw [hb₀.session]; exact h)

theorem after_proper {ts : List Turn} (hts : ∀ x ∈ ts, x.disturbance.IsHonest) (hp : ∀ x ∈ ts, x.IsProper) :
    ∀ {d : Desk}, d.store.IsProper → (d.after ts).store.IsProper := by
  induction ts with
  | nil => exact id
  | cons x ts ih =>
    intro d h
    obtain ⟨hx, hts⟩ := List.forall_mem_cons.mp hts
    obtain ⟨px, hp⟩ := List.forall_mem_cons.mp hp
    exact ih hts hp (turn_proper hx px h)

end Ledger

end LoanLedger
