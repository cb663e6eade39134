import LoanLedger.Proofs.Property.Ledger
import LoanLedger.Proofs.Statement
import LoanLedger.Proofs.Storage

/-!
# What an accepted entry does to the rows

* `Tables.nextNumber`, `Tables.counted` : the next number of a sequence, and the rows when it was given;
  `Sequence.next_ok` : that is what a number that was given does, however the work was disturbed;
* `Appended loanId r t e t'` : the entry `e` records `r` with the next number of the log of its loan,
  sealed behind the newest entry, and is stored as it is;
* `AuditLog.append_ok` : that is what an entry that was accepted does;
* `AuditLog.append_duplicate` : an entry that was rejected as a duplicate leaves the rows as they were.
-/

namespace LoanLedger.Ledger

variable {d d' : Desk}

/-! ## Numbers -/

namespace Tables

def nextNumber (t : Tables) (name : String) : Int :=
  match t.counter? name with
  | some c => c.value + 1
  | none => 1

/-- The rows when the next number of a sequence was given. -/
def counted (t : Tables) (name : String) : Tables :=
  match t.counter? name with
  | some c => t.setCounter name (c.value + 1)
  | none => { t with counters := t.counters ++ [⟨name, 1⟩] }

theorem counter?_name {t : Tables} {name : String} {c : Counter} (h : t.counter? name = some c) :
    c.name = name := by
  simpa using List.find?_some h

@[simp] theorem counted_entries (t : Tables) (name : String) : (t.counted name).entries = t.entries := by
  unfold counted
  split <;> rfl

@[simp] theorem counted_loans (t : Tables) (name : String) : (t.counted name).loans = t.loans := by
  unfold counted
  split <;> rfl

@[simp] theorem counted_disbursements (t : Tables) (name : String) :
    (t.counted name).disbursements = t.disbursements := by
  unfold counted
  split <;> rfl

end Tables

namespace Sequence

theorem locked_ok {name : String} {c : Option Counter} (h : locked name d = .ok c d') :
    (c = none ∨ c = d.session.tables.counter? name) ∧ d'.session = d.session := by
  rcases call_ok h with h | ⟨-, rfl, rfl⟩
  · obtain ⟨rfl, hd⟩ := query_ok h
    exact ⟨.inr rfl, hd⟩
  · exact ⟨.inl rfl, rfl⟩

theorem raise_ok {name : String} {c : Counter} {n : Int} (hc : d.session.tables.counter? name = some c)
    (h : raise c d = .ok n d') :
    n = d.session.tables.nextNumber name ∧ d'.session.tables = d.session.tables.counted name := by
  obtain ⟨_, d₁, h₁, h⟩ := Work.bind_ok h
  obtain ⟨_, d₂, h₂, h⟩ := Work.bind_ok h
  cases h
  obtain ⟨t, ht, hd⟩ := change_ok h₁
  split at ht
  · cases ht
    rw [Tables.nextNumber, Tables.counted, hc, emit_ok h₂, hd, Tables.counter?_name hc]
    exact ⟨rfl, rfl⟩
  · cases ht

/-- The counter of a sequence was made, or it was there already. -/
theorem first_ok {name : String} {isFirst : Bool}
    (h : savepoint (do insert (·.addCounter? ⟨name, 1⟩); pure true) (pure false) d = .ok isFirst d') :
    (isFirst = true ∧ d.session.tables.counter? name = none ∧ d'.session.tables = d.session.tables.counted name) ∨
      (isFirst = false ∧ d'.session = d.session) := by
  rcases savepoint_ok h with ⟨d₁, d₂, -, hs₁, hx, hs₂⟩ | ⟨d₁, -, hs₁, hy⟩
  · obtain ⟨_, d₃, hi, hx⟩ := Work.bind_ok hx
    cases hx
    obtain ⟨t, ht, hd⟩ := insert_ok hi
    rw [hs₁] at ht
    obtain ⟨hnone, rfl⟩ := Tables.addCounter?_eq_some.mp ht
    refine .inl ⟨rfl, hnone, ?_⟩
    rw [hs₂, hd, Tables.counted, show d.session.tables.counter? name = none from hnone]
  · cases hy
    exact .inr ⟨rfl, hs₁⟩

/-- A number that was given is the next one, and its counter holds it. -/
theorem next_ok {name : String} {n : Int} (h : next name d = .ok n d') :
    n = d.session.tables.nextNumber name ∧ d'.session.tables = d.session.tables.counted name := by
  obtain ⟨c, d₁, hl, h⟩ := Work.bind_ok h
  obtain ⟨hc, hs⟩ := locked_ok hl
  rw [← hs]
  cases c with
  | some c =>
    rcases hc with hc | hc
    · cases hc
    · exact raise_ok (hs ▸ hc.symm) h
  | none =>
    obtain ⟨isFirst, d₂, hf, h⟩ := Work.bind_ok h
    rcases first_ok hf with ⟨rfl, hnone, ht⟩ | ⟨rfl, hs₂⟩
    · -- the counter is made
      obtain ⟨_, d₃, hn, h⟩ := Work.bind_ok h
      cases h
      rw [emit_ok hn, Tables.nextNumber, hnone]
      exact ⟨rfl, ht⟩
    · -- it is there already
      obtain ⟨_, d₃, he, h⟩ := Work.bind_ok h
      obtain ⟨c, d₄, hl, h⟩ := Work.bind_ok h
      obtain ⟨hc, hs₄⟩ := locked_ok hl
      have hs : d₄.session = d₁.session := hs₄.trans ((emit_ok he).trans hs₂)
      cases c with
      | none => cases h
      | some c =>
        rcases hc with hc | hc
        · cases hc
        · rw [← hs]
          rw [← hs₄] at hc
          exact raise_ok hc.symm h

end Sequence

/-! ## Entries -/

/-- The rows with a new entry, whose number was given. -/
def Tables.logged (t : Tables) (e : Entry) : Tables :=
  { t.counted (Sequence.ofLoan e.loanId) with entries := t.entries ++ [e] }

/-- The entry `e` records `r` in the log of a loan. -/
structure Appended (loanId : String) (r : AuditRecord) (t : Tables) (e : Entry) (t' : Tables) : Prop where
  ofLoan : e.loanId = loanId
  seq : e.seq = t.nextNumber (Sequence.ofLoan loanId)
  event : e.event = r.event.word
  actor : e.actor = r.actor
  timestamp : r.timestamp.toUtc? = some e.timestamp
  details : e.details = r.details
  attributes : e.attributes = .map r.attributes
  key : e.key = r.key
  isPlain : e.IsPlain
  isSealed : e.IsSealed ((t.newest? loanId).map (·.hash))
  isFree : t.isTaken e = false
  tables : t' = t.logged e

namespace AuditLog

/-- An entry that was stored is there as a row. -/
theorem store_stored {e : Entry} {u : Unit} (h : store e d = .ok u d') :
    ∃ row, e.stored? = some row ∧ d.session.tables.isTaken row = false ∧
      d'.session.tables = { d.session.tables with entries := d.session.tables.entries ++ [row] } := by
  obtain ⟨_, d₁, hc, h⟩ := Work.bind_ok h
  obtain ⟨t, ht, hd⟩ := change_ok hc
  rw [know_ok h, hd]
  cases hr : e.stored? with
  | none => rw [hr] at ht; cases ht
  | some row =>
    rw [hr] at ht
    dsimp only at ht
    split at ht
    · cases ht
    · split at ht
      · next h =>
        cases ht
        exact ⟨row, rfl, Tables.addEntry?_eq_some.mp h⟩
      · cases ht

theorem newest?_of_entries {t t' : Tables} (h : t'.entries = t.entries) (loanId : String) :
    t'.newest? loanId = t.newest? loanId := by
  rw [Tables.newest?, Tables.entriesOf, h]
  rfl

theorem isTaken_of_entries {t t' : Tables} (h : t'.entries = t.entries) (e : Entry) :
    t'.isTaken e = t.isTaken e := by
  rw [Tables.isTaken, Tables.isTaken, Tables.entryAt?, Tables.entryAt?, h]
  simp only [Tables.entryByKey?, h]

/-- An entry that was made has the next number, is sealed behind the newest one, and is there as a row. -/
theorem next_stored {loanId : String} {r : AuditRecord} {e : Entry} (h : next loanId r d = .ok e d') :
    ∃ timestamp recordedAt row, r.timestamp.toUtc? = some timestamp ∧ recordedAt.IsUtc ∧
      (draft loanId (d.session.tables.nextNumber (Sequence.ofLoan loanId)) r timestamp recordedAt).sealed?
        ((d.session.tables.newest? loanId).map (·.hash)) = .ok e ∧
      e.stored? = some row ∧ d.session.tables.isTaken row = false ∧ d'.session.tables =
        { d.session.tables.counted (Sequence.ofLoan loanId) with entries := d.session.tables.entries ++ [row] } := by
  obtain ⟨seq, d₁, hseq, h₁⟩ := Work.bind_ok h
  obtain ⟨rfl, ht⟩ := Sequence.next_ok hseq
  obtain ⟨last, d₂, hlast, h₂⟩ := Work.bind_ok h₁
  obtain ⟨rfl, hs⟩ := query_ok hlast
  obtain ⟨timestamp, d₃, hts, h₃⟩ := Work.bind_ok h₂
  obtain ⟨htime, rfl⟩ := utc_ok hts
  obtain ⟨now, d₄, hnow, h₄⟩ := Work.bind_ok h₃
  obtain ⟨-, rfl⟩ := now_ok hnow
  obtain ⟨recordedAt, d₅, hrec, h₅⟩ := Work.bind_ok h₄
  obtain ⟨hrecorded, rfl⟩ := utc_ok hrec
  obtain ⟨e', d₆, he, h₆⟩ := Work.bind_ok h₅
  obtain ⟨hseal, rfl⟩ := Work.ofExcept_run_ok he
  obtain ⟨_, d₇, hstore, h₇⟩ := Work.bind_ok h₆
  cases h₇
  have hentries : d₁.session.tables.entries = d.session.tables.entries := by rw [ht, Tables.counted_entries]
  rw [newest?_of_entries hentries] at hseal
  obtain ⟨row, hrow, hfree, htables⟩ := store_stored hstore
  rw [hs] at hfree htables
  exact ⟨timestamp, recordedAt, row, htime, Calendar.Timestamp.isUtc_of_toUtc? hrecorded, mapError_ok hseal, hrow,
    by rw [← isTaken_of_entries hentries]; exact hfree, by rw [htables, hentries, ht]⟩

theorem next_ok {loanId : String} {r : AuditRecord} {e : Entry} (hr : r.IsJson)
    (h : next loanId r d = .ok e d') : Appended loanId r d.session.tables e d'.session.tables := by
  obtain ⟨timestamp, recordedAt, row, htime, hrecorded, hseal, hrow, hfree, htables⟩ := next_stored h
  obtain ⟨hsealed, payloadHash, hash, hfields⟩ := Entry.sealed?_eq hseal
  have hplain : e.IsPlain := by
    rw [hfields]
    exact ⟨Calendar.Timestamp.isUtc_of_toUtc? htime, hrecorded, hr⟩
  obtain rfl := Entry.stored?_eq hplain hrow
  have hof : row.loanId = loanId := by rw [hfields]; rfl
  exact {
    ofLoan := hof
    seq := by rw [hfields]; rfl
    event := by rw [hfields]; rfl
    actor := by rw [hfields]; rfl
    timestamp := by rw [hfields]; exact htime
    details := by rw [hfields]; rfl
    attributes := by rw [hfields]; rfl
    key := by rw [hfields]; rfl
    isPlain := hplain
    isSealed := hsealed
    isFree := hfree
    tables := by rw [htables, Tables.logged, hof] }

theorem afterConflict_ok {loanId key : String} {e : Entry} : afterConflict loanId key d ≠ .ok e d' := by
  intro h
  obtain ⟨found, d₁, -, h₁⟩ := Work.bind_ok h
  cases found <;> cases h₁

/-- An entry that was accepted was made from the rows of the session. -/
theorem append_made {loanId : String} {r : AuditRecord} {o : Option Entry} (h : append loanId r d = .ok o d') :
    (o = none ∧ d'.session = d.session ∧ (judge .appendLog d.faults).2 = .missed) ∨
      ∃ e d₁ d₂, o = some e ∧ next loanId r d₁ = .ok e d₂ ∧ d₁.session.tables = d.session.tables ∧
        d'.session.tables = d₂.session.tables := by
  rcases call_ok h with h | ⟨hm, rfl, rfl⟩
  · obtain ⟨e, d₁, hg, h₁⟩ := Work.bind_ok h
    obtain ⟨_, d₂, he, h₂⟩ := Work.bind_ok h₁
    cases h₂
    rw [emit_ok he]
    have hn := guarded_ok hg
    cases hk : r.key with
    | none =>
      rw [hk] at hn
      exact .inr ⟨e, d.passed .appendLog, d₁, rfl, hn, rfl, rfl⟩
    | some key =>
      rw [hk] at hn
      rcases savepoint_ok hn with ⟨d₃, d₄, -, hs₃, hx, hs₁⟩ | ⟨_, -, -, hy⟩
      · exact .inr ⟨e, d₃, d₄, rfl, hx, by rw [hs₃]; rfl, by rw [hs₁]⟩
      · exact absurd hy afterConflict_ok
  · exact .inl ⟨rfl, rfl, hm⟩

/-- An entry that was accepted has the next number and is sealed behind the newest one. -/
theorem append_ok {loanId : String} {r : AuditRecord} {o : Option Entry} (hr : r.IsJson)
    (h : append loanId r d = .ok o d') :
    (o = none ∧ d'.session = d.session ∧ (judge .appendLog d.faults).2 = .missed) ∨
      ∃ e, o = some e ∧ Appended loanId r d.session.tables e d'.session.tables := by
  rcases append_made h with h | ⟨e, d₁, d₂, rfl, hn, hs, hs'⟩
  · exact .inl h
  · have := next_ok hr hn
    rw [hs, ← hs'] at this
    exact .inr ⟨e, rfl, this⟩

theorem append_appended {loanId : String} {r : AuditRecord} {o : Option Entry} (hd : d.IsHonest)
    (hr : r.IsJson) (h : append loanId r d = .ok o d') :
    ∃ e, Appended loanId r d.session.tables e d'.session.tables := by
  rcases append_ok hr h with ⟨-, -, hm⟩ | ⟨e, -, ha⟩
  · exact absurd hm (hd.not_missed rfl)
  · exact ⟨e, ha⟩

theorem findTransition_ok {key : String} {o : Option Entry} (h : findTransition key d = .ok o d') :
    d'.session = d.session := by
  rcases call_ok h with h | ⟨-, -, rfl⟩
  · obtain ⟨es, d₁, ha, h₁⟩ := Work.bind_ok (guarded_ok h)
    cases h₁
    obtain ⟨rows, d₂, hq, h₂⟩ := Work.bind_ok ha
    cases h₂
    exact (query_ok hq).2
  · rfl

end AuditLog

end LoanLedger.Ledger
