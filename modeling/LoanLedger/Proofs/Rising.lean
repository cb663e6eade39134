import LoanLedger.Proofs.Contents
import LoanLedger.Proofs.Hashed
import LoanLedger.Proofs.Sequencing

/-!
# Logs rise, whoever works on the ledger

What holds of every log when blocks are made up of any operations in any order, and go on after any failure:

* `Entry.IsMade e prevHash` : the hash of `e` is that of its place, its content hash and the hash before it;
* `Rising es` : the numbers of the entries rise, and each is made behind the one before;
* `Ranked t` : so are all logs, and the next number of each is a new one;
* `Grows t t'` : rows that were ranked are ranked again, with the entries from before in front;
* `Desk.SparesLogs` : while entries are guarded, what is not made for the log leaves its entries and counters;
* `Desk.Grows` : the rows of the session grow while entries are guarded. All operations keep that, whether they go
  well or fail; `turn_grows` : and so do the committed rows in every turn.
-/

namespace LoanLedger.Ledger

open Engine

variable {d d' : Desk} {t t' t₁ : Tables} {loanId name : String} {es : List Entry} {e : Entry}

/-! ## Rising logs -/

structure Entry.IsMade (e : Entry) (prevHash : Option String) : Prop where
  prevHash : e.prevHash = prevHash
  payloadHash : IsDigest e.payloadHash
  hash : e.hash = Audit.chainHash e.loanId e.seq e.event e.payloadHash e.prevHash
  content : ∃ s, e.contentText? = .ok s

/-- Entries whose numbers rise, each made behind the one before. -/
inductive Rising : List Entry → Prop where
  | nil : Rising []
  | snoc {es : List Entry} {e : Entry} : Rising es → (∀ x ∈ es, x.seq < e.seq) →
    e.IsMade (es.getLast?.map (·.hash)) → Rising (es ++ [e])

theorem Rising.ascending (h : Rising es) : es.Pairwise fun a b => a.seq < b.seq := by
  induction h with
  | nil => exact .nil
  | snoc _ hlt _ ih =>
    refine List.pairwise_append.mpr ⟨ih, List.pairwise_singleton _ _, fun a ha b hb => ?_⟩
    rw [List.mem_singleton.mp hb]
    exact hlt a ha

theorem entriesOf_of_rising (h : Rising (t.logOf loanId)) : t.entriesOf loanId = t.logOf loanId :=
  entriesOf_of_sorted (h.ascending.imp Int.le_of_lt)

/-- All logs rise, and the next number of each is a new one. -/
structure Ranked (t : Tables) : Prop where
  rising : ∀ loanId, Rising (t.logOf loanId)
  behind : ∀ loanId, ∀ e ∈ t.logOf loanId, e.seq < t.nextNumber (Sequence.ofLoan loanId)

theorem ranked_empty : Ranked .empty where
  rising _ := .nil
  behind _ _ h := nomatch h

theorem Ranked.newest? (h : Ranked t) (loanId : String) : t.newest? loanId = (t.logOf loanId).getLast? := by
  rw [Tables.newest?, entriesOf_of_rising (h.rising loanId)]

theorem nextNumber_counted (t : Tables) (name other : String) :
    (t.counted name).nextNumber other = if other = name then t.nextNumber name + 1 else t.nextNumber other := by
  rw [Tables.nextNumber, counter?_counted]
  by_cases h : other = name
  · rw [if_pos h, if_pos h]
  · rw [if_neg h, if_neg h]
    rfl

theorem Ranked.of_same (h : Ranked t) (he : t'.entries = t.entries) (hc : t'.counters = t.counters) : Ranked t' where
  rising loanId := by
    rw [logOf_of_entries he]
    exact h.rising loanId
  behind loanId x hx := by
    rw [logOf_of_entries he] at hx
    rw [Tables.nextNumber, Tables.counter?, hc]
    exact h.behind loanId x hx

/-- A number that is given leaves the logs as they are. -/
theorem Ranked.counted (h : Ranked t) (name : String) : Ranked (t.counted name) where
  rising loanId := by
    rw [logOf_of_entries (Tables.counted_entries t name)]
    exact h.rising loanId
  behind loanId x hx := by
    rw [logOf_of_entries (Tables.counted_entries t name)] at hx
    have := h.behind loanId x hx
    rw [nextNumber_counted]
    split
    · next hn => rw [← hn]; omega
    · exact this

/-- An entry with the next number that is made behind the newest one goes on with its log. -/
theorem Ranked.logged (h : Ranked t) (hs : e.seq = t.nextNumber (Sequence.ofLoan e.loanId))
    (hm : e.IsMade ((t.newest? e.loanId).map (·.hash))) : Ranked (t.logged e) where
  rising other := by
    rw [logOf_logged]
    split
    · next ho =>
      cases ho
      refine .snoc (h.rising e.loanId) (fun x hx => hs ▸ h.behind e.loanId x hx) ?_
      rw [← h.newest?]
      exact hm
    · rw [List.append_nil]
      exact h.rising other
  behind other x hx := by
    have hn : (t.logged e).nextNumber (Sequence.ofLoan other) =
        (t.counted (Sequence.ofLoan e.loanId)).nextNumber (Sequence.ofLoan other) := rfl
    rw [hn, nextNumber_counted]
    rw [logOf_logged, List.mem_append] at hx
    rcases hx with hx | hx
    · have := h.behind other x hx
      split
      · next ho => rw [← ho]; omega
      · exact this
    · split at hx
      · next ho =>
        cases ho
        rw [if_pos rfl, List.mem_singleton.mp hx, hs]
        omega
      · cases hx

/-! ## Rows that grow -/

def Grows (t t' : Tables) : Prop := Ranked t → Ranked t' ∧ Keeping t t'

namespace Grows

theorem of_same (he : t'.entries = t.entries) (hc : t'.counters = t.counters) : Grows t t' :=
  fun h => ⟨h.of_same he hc, .of_entries he⟩

theorem of_eq (h : t' = t) : Grows t t' := .of_same (by rw [h]) (by rw [h])

theorem trans (h : Grows t t₁) (h' : Grows t₁ t') : Grows t t' := fun ht =>
  ⟨(h' (h ht).1).1, List.IsPrefix.trans (h ht).2 (h' (h ht).1).2⟩

theorem counted (t : Tables) (name : String) : Grows t (t.counted name) :=
  fun h => ⟨h.counted name, .of_entries (Tables.counted_entries t name)⟩

theorem entriesOf (h : Grows t t') (ht : Ranked t) (loanId : String) : t.entriesOf loanId <+: t'.entriesOf loanId := by
  obtain ⟨ht', keeping⟩ := h ht
  rw [entriesOf_of_rising (ht.rising loanId), entriesOf_of_rising (ht'.rising loanId)]
  exact List.IsPrefix.filter _ keeping

end Grows

/-- While entries are guarded, the rows of the session grew. -/
structure Desk.Grows (d d' : Desk) : Prop where
  guarded : d'.isGuarded = d.isGuarded
  rows : d.isGuarded = true → Ledger.Grows d.session.tables d'.session.tables

theorem Desk.Grows.of_session (hg : d'.isGuarded = d.isGuarded) (hs : d'.session.tables = d.session.tables) :
    d.Grows d' :=
  ⟨hg, fun _ => .of_eq hs⟩

instance : Frame Desk.Grows where
  refl _ := .of_session rfl rfl
  trans h h' := ⟨h'.guarded.trans h.guarded, fun hg => (h.rows hg).trans (h'.rows (h.guarded.trans hg))⟩
  log _ _ := .of_session rfl rfl
  pass _ _ := .of_session rfl rfl
  know _ _ := .of_session rfl rfl
  broken _ := .of_session rfl rfl
  check _ _ _ := .of_session rfl rfl
  back h := .of_session h.guarded rfl

instance : Issuing Desk.Grows where
  freshId _ := .of_session rfl rfl

/-! ## Numbers and entries -/

def Desk.SameRows (d d' : Desk) : Prop := d'.session.tables = d.session.tables

instance : Frame Desk.SameRows where
  refl _ := rfl
  trans h h' := h'.trans h
  log _ _ := rfl
  pass _ _ := rfl
  know _ _ := rfl
  broken _ := rfl
  check _ _ _ := rfl
  back _ := rfl

/-- Work that fails leaves the rows when its parts do. -/
theorem bind_error_same {α β : Type} {x : Work α} {f : α → Work β} {y : Error} [Keeps Desk.SameRows x]
    (h : (x >>= f) d = .error y d') (hf : ∀ a d₁, f a d₁ = .error y d' → d₁.SameRows d') : d.SameRows d' := by
  rcases Work.bind_error h with h | ⟨a, d₁, hx, h⟩
  · exact Keeps.error h
  · exact Frame.trans (Keeps.ok hx : d.SameRows d₁) (hf a d₁ h)

/-- A change that fails leaves the rows of the session. -/
theorem change_error {g : Tables → Except Error Tables} {x : Error} (h : change g d = .error x d') :
    d'.session.tables = d.session.tables := by
  obtain ⟨x₁, d₁, h, hh⟩ := Work.recover_error h
  have failed : d.SameRows d₁ := bind_error_same h fun _ d₂ h => bind_error_same h fun s d₃ h =>
    bind_error_same h fun t d₄ h => by cases h
  have broken : Keeps Desk.SameRows (do breakSession; throw x₁ : Work Unit) := inferInstance
  exact (broken.error hh).trans failed

/-- The next number of a sequence was given, or the rows of the session are the same. -/
def Desk.CountsAtMost (name : String) (d d' : Desk) : Prop :=
  d'.session.tables = d.session.tables ∨ d'.session.tables = d.session.tables.counted name

namespace Sequence

theorem raise_error {c : Counter} {x : Error} (hc : d.session.tables.counter? name = some c)
    (h : raise c d = .error x d') : d.CountsAtMost name d' := by
  rcases Work.bind_error h with h | ⟨_, d₁, h₁, h⟩
  · exact .inl (change_error h)
  rcases Work.bind_error h with h | ⟨_, d₂, -, h⟩
  · obtain ⟨t, ht, hd⟩ := change_ok h₁
    split at ht
    · cases ht
      refine .inr ?_
      have hs : d₁.SameRows d' := Keeps.error h
      rw [show d'.session.tables = d₁.session.tables from hs, hd, Tables.counted, hc, Tables.counter?_name hc]
    · cases ht
  · cases h

theorem locked_raise_error {x : Error} {d₁ : Desk} {c : Counter} (hl : locked name d = .ok (some c) d₁)
    (h : raise c d₁ = .error x d') : d.CountsAtMost name d' := by
  obtain ⟨hc | hc, hs⟩ := locked_ok hl
  · cases hc
  · have := raise_error (hs ▸ hc.symm) h
    rwa [Desk.CountsAtMost, hs] at this

/-- The counter may have been made before the attempt to make it failed. -/
theorem first_error {x : Error}
    (h : savepoint (do insert (·.addCounter? ⟨name, 1⟩); pure true) (pure false) d = .error x d') :
    d.CountsAtMost name d' := by
  rcases savepoint_error h with h | ⟨d₁, -, hs, h⟩ | ⟨d₁, -, -, h⟩
  · exact .inl (Keeps.error h : d.SameRows d')
  · rw [Desk.CountsAtMost, ← hs]
    rcases Work.bind_error h with h | ⟨_, d₂, hi, h⟩
    · rcases Work.bind_error h with h | ⟨_, _, -, h⟩
      · exact .inl (change_error h)
      · cases h
    · obtain ⟨_, d₃, hi, hp⟩ := Work.bind_ok hi
      cases hp
      obtain ⟨t, ht, hd⟩ := insert_ok hi
      obtain ⟨hnone, rfl⟩ := Tables.addCounter?_eq_some.mp ht
      have left : Keeps Desk.SameRows (do statement; pure true) := inferInstance
      exact .inr ((left.error h).trans (by rw [hd, Tables.counted, hnone]))
  · cases h

/-- A number that was not given is counted at most. -/
theorem next_error {x : Error} (h : next name d = .error x d') : d.CountsAtMost name d' := by
  rcases Work.bind_error h with h | ⟨c, d₁, hl, h⟩
  · exact .inl (Keeps.error h : d.SameRows d')
  cases c with
  | some c => exact locked_raise_error hl h
  | none =>
    rw [Desk.CountsAtMost, ← (locked_ok hl).2]
    rcases Work.bind_error h with h | ⟨isFirst, d₂, hf, h⟩
    · exact first_error h
    rcases first_ok hf with ⟨rfl, -, ht⟩ | ⟨rfl, hs⟩
    · have noted : Keeps Desk.SameRows (do noteAllocated name 1; pure (1 : Int)) := inferInstance
      exact .inr ((noted.error h).trans ht)
    · rw [← hs]
      rcases Work.bind_error h with h | ⟨_, d₃, he, h⟩
      · exact .inl (Keeps.error h : d₂.SameRows d')
      rw [← emit_ok he]
      rcases Work.bind_error h with h | ⟨c, d₄, hl, h⟩
      · exact .inl (Keeps.error h : d₃.SameRows d')
      cases c with
      | some c => exact locked_raise_error hl h
      | none =>
        cases h
        exact .inl (congrArg Session.tables (locked_ok hl).2)

instance (name : String) : Keeps Desk.Grows (next name) where
  holds := by
    have near : Kept Desk.Near Int (next name) := Holds.holds
    refine .intro (fun d n d' h => ⟨(near.ok h).guarded, fun _ => ?_⟩) fun d x d' h =>
      ⟨(near.error h).guarded, fun _ => ?_⟩
    · rw [(next_ok h).2]
      exact .counted _ name
    · rcases next_error h with hs | hs
      · exact .of_eq hs
      · rw [hs]
        exact .counted _ name

end Sequence

namespace AuditLog

theorem isMade_of_sealed {r : AuditRecord} {time recordedAt : Calendar.Timestamp} {seq : Int} {prevHash : Option String}
    {row : Entry} (h : (draft loanId seq r time recordedAt).sealed? prevHash = .ok e) (hr : e.stored? = some row) :
    row.loanId = loanId ∧ row.seq = seq ∧ row.IsMade prevHash := by
  obtain ⟨hsealed, payloadHash, hash, he⟩ := Entry.sealed?_eq h
  obtain ⟨s, -, hpay, -, -⟩ := hsealed.texts
  have content := Entry.content_of_stored (t := r.event) (a := r.attributes) (by rw [he]; rfl) (by rw [he]; rfl) hr
  obtain ⟨_, _, _, -, rfl⟩ := Entry.stored?_row hr
  exact ⟨by rw [he]; rfl, by rw [he]; rfl,
    ⟨hsealed.prevHash, by rw [hpay]; exact isDigest_digestOf s, hsealed.hash, content⟩⟩

theorem next_grows {r : AuditRecord} (h : next loanId r d = .ok e d') :
    Grows d.session.tables d'.session.tables := by
  obtain ⟨time, recordedAt, row, -, -, hseal, hrow, -, ht⟩ := next_stored h
  obtain ⟨rfl, hseq, made⟩ := isMade_of_sealed hseal hrow
  intro ranked
  rw [show d'.session.tables = d.session.tables.logged row from ht]
  exact ⟨ranked.logged hseq made, List.prefix_append _ _⟩

/-- An entry that was not made takes a number at most. -/
theorem next_error {r : AuditRecord} {x : Error} (h : next loanId r d = .error x d') :
    d.CountsAtMost (Sequence.ofLoan loanId) d' := by
  rcases Work.bind_error h with h | ⟨seq, d₁, hseq, h⟩
  · exact Sequence.next_error h
  have counted := (Sequence.next_ok hseq).2
  have same : d₁.SameRows d' := bind_error_same h fun last d₂ h => bind_error_same h fun time d₃ h =>
    bind_error_same h fun now d₄ h => bind_error_same h fun recordedAt d₅ h => bind_error_same h fun e d₆ h => by
      rcases Work.bind_error h with h | ⟨_, _, -, h⟩
      · rcases Work.bind_error h with h | ⟨_, _, -, h⟩
        · exact change_error h
        · cases h
      · cases h
  exact .inr (same.trans counted)

instance (loanId : String) (r : AuditRecord) : Keeps Desk.Grows (next loanId r) where
  holds := by
    have near : Kept Desk.Near Entry (next loanId r) := Holds.holds
    refine .intro (fun d e d' h => ⟨(near.ok h).guarded, fun _ => next_grows h⟩)
      fun d x d' h => ⟨(near.error h).guarded, fun _ => ?_⟩
    rcases next_error h with hs | hs
    · exact .of_eq hs
    · rw [hs]
      exact .counted _ _

end AuditLog

/-! ## Loans, disbursements and tampering -/

/-- The session has the same entries and counters. -/
structure Desk.SameLogs (d d' : Desk) : Prop where
  entries : d'.session.tables.entries = d.session.tables.entries
  counters : d'.session.tables.counters = d.session.tables.counters

instance : Frame Desk.SameLogs where
  refl _ := ⟨rfl, rfl⟩
  trans h h' := ⟨h'.entries.trans h.entries, h'.counters.trans h.counters⟩
  log _ _ := ⟨rfl, rfl⟩
  pass _ _ := ⟨rfl, rfl⟩
  know _ _ := ⟨rfl, rfl⟩
  broken _ := ⟨rfl, rfl⟩
  check _ _ _ := ⟨rfl, rfl⟩
  back _ := ⟨rfl, rfl⟩

theorem change_same {g : Tables → Except Error Tables}
    (hg : ∀ t t', g t = .ok t' → t'.entries = t.entries ∧ t'.counters = t.counters) :
    Keeps Desk.SameLogs (change g) :=
  change_keeps fun _ t' ht => ⟨(hg _ t' ht).1, (hg _ t' ht).2⟩

/-- While entries are guarded, the session has the same entries and counters. -/
structure Desk.SparesLogs (d d' : Desk) : Prop where
  guarded : d'.isGuarded = d.isGuarded
  logs : d.isGuarded = true → d.SameLogs d'

theorem Desk.SparesLogs.of_session (hg : d'.isGuarded = d.isGuarded) (hs : d'.session.tables = d.session.tables) :
    d.SparesLogs d' :=
  ⟨hg, fun _ => ⟨by rw [hs], by rw [hs]⟩⟩

instance : Frame Desk.SparesLogs where
  refl _ := .of_session rfl rfl
  trans h h' := ⟨h'.guarded.trans h.guarded, fun hg => Frame.trans (h.logs hg) (h'.logs (h.guarded.trans hg))⟩
  log _ _ := .of_session rfl rfl
  pass _ _ := .of_session rfl rfl
  know _ _ := .of_session rfl rfl
  broken _ := .of_session rfl rfl
  check _ _ _ := .of_session rfl rfl
  back h := .of_session h.guarded rfl

theorem Keeps.spares {α : Type} {x : Work α} [Keeps Desk.SameLogs x] [Keeps Desk.Near x] :
    Keeps Desk.SparesLogs x where
  holds d := by
    have near : Kept Desk.Near α x := Holds.holds
    have same : Kept Desk.SameLogs α x := Holds.holds
    exact ⟨(near d).guarded, fun _ => same d⟩

/-- What changes neither entries nor counters lets the rows grow. -/
theorem Keeps.grows {α : Type} {x : Work α} [Keeps Desk.SparesLogs x] : Keeps Desk.Grows x where
  holds d := by
    have spared : Kept Desk.SparesLogs α x := Holds.holds
    exact ⟨(spared d).guarded, fun hg => .of_same ((spared d).logs hg).entries ((spared d).logs hg).counters⟩

namespace Loans

instance (l : Loan) : Keeps Desk.SameLogs (add l) := by
  have := change_same (g := fun t =>
      if !Column.fitsInteger l.definitionVersion then .error .tooLarge
      else match t.addLoan? l with
        | some t => .ok t
        | none => .error (.storage .conflict)) fun t t' ht => by
    split at ht
    · cases ht
    · split at ht
      · next h =>
        cases ht
        obtain ⟨-, rfl⟩ := Tables.addLoan?_eq_some.mp h
        exact ⟨rfl, rfl⟩
      · cases ht
  unfold add
  infer_instance

instance (loanId : String) : Keeps Desk.SameLogs (bump loanId) :=
  ⟨fun _ => ⟨rfl, rfl⟩⟩

instance (l : Loan) (state : String) : Keeps Desk.SameLogs (write l state) := by
  have := change_same (g := fun t =>
      if (t.loan? l.loanId).any (·.version = l.version) then
        .ok (t.changeLoan l.loanId fun row => { row with state, version := l.version + 1 })
      else .error (.storage .stale)) fun t t' ht => by
    split at ht <;> cases ht
    exact ⟨rfl, rfl⟩
  unfold write
  infer_instance

instance (l : Loan) : Keeps Desk.SparesLogs (add l) := Keeps.spares

instance (l : Loan) : Keeps Desk.Grows (add l) := Keeps.grows

instance (loanId : String) : Keeps Desk.SparesLogs (bump loanId) := Keeps.spares

instance (loanId : String) : Keeps Desk.Grows (bump loanId) := Keeps.grows

instance (l : Loan) (state : String) : Keeps Desk.SparesLogs (write l state) := Keeps.spares

instance (l : Loan) (state : String) : Keeps Desk.Grows (write l state) := Keeps.grows

end Loans

namespace Disbursements

instance (x : Disbursement) : Keeps Desk.SameLogs (add x) := by
  unfold add
  refine .bind (change_same fun t t' ht => ?_) fun _ => inferInstance
  split at ht
  · cases ht
  · split at ht
    · next h =>
      cases ht
      obtain ⟨-, rfl⟩ := Tables.addDisbursement?_eq_some.mp h
      exact ⟨rfl, rfl⟩
    · cases ht

instance (x : Disbursement) (paidAt : Calendar.Timestamp) : Keeps Desk.SameLogs (pay x paidAt) := by
  unfold pay
  refine .bind (change_same fun t t' ht => ?_) fun _ => inferInstance
  split at ht <;> cases ht
  exact ⟨rfl, rfl⟩

instance (x : Disbursement) : Keeps Desk.SparesLogs (add x) := Keeps.spares

instance (x : Disbursement) : Keeps Desk.Grows (add x) := Keeps.grows

instance (x : Disbursement) (paidAt : Calendar.Timestamp) : Keeps Desk.SparesLogs (pay x paidAt) := Keeps.spares

instance (x : Disbursement) (paidAt : Calendar.Timestamp) : Keeps Desk.Grows (pay x paidAt) := Keeps.grows

end Disbursements

namespace Tampering

/-- While entries are guarded, an attempt to change one ends here. -/
theorem guardEntry_run (loanId operation reason : String) (hd : d.isGuarded = true) :
    ∃ log, guardEntry loanId operation reason d = .error (.failure (.immutabilityViolation "AuditLogEntry" reason))
      { d with session := { d.session with isBroken := true }, log } := by
  unfold guardEntry
  rw [Work.bind_of_ok (show isGuarded d = .ok true d by rw [← hd]; rfl), if_pos rfl,
    Work.bind_of_ok (show breakSession d = .ok () _ from rfl)]
  obtain ⟨log, hr⟩ := emit_run .error "db.immutability" "immutability_violation_blocked" [
    ("entity_type", .text "AuditLogEntry"), ("audit_loan_id", .text loanId), ("operation", .text operation)]
    { d with session := { d.session with isBroken := true } }
  rw [Work.bind_of_ok hr]
  exact ⟨log, rfl⟩

/-- What stands behind the guard is not done while entries are guarded. -/
theorem guarded_spares {α : Type} {x : Work α} (loanId operation reason : String) [Keeps Desk.Near x] :
    Keeps Desk.SparesLogs (do guardEntry loanId operation reason; x) where
  holds d := by
    have near : Kept Desk.Near α (do guardEntry loanId operation reason; x) := Holds.holds
    refine ⟨(near d).guarded, fun hd => ?_⟩
    obtain ⟨log, hr⟩ := guardEntry_run loanId operation reason hd
    rw [Work.desk_bind_of_error hr]
    exact ⟨rfl, rfl⟩

instance (loanId : String) (seq : Int) (f : Field) (v : Value) : Keeps Desk.SparesLogs (editEntry loanId seq f v) := by
  unfold editEntry
  exact .bind inferInstance fun e => guarded_spares _ _ _

instance (loanId : String) (seq : Int) : Keeps Desk.SparesLogs (eraseEntry loanId seq) := by
  unfold eraseEntry
  exact .bind inferInstance fun e => guarded_spares _ _ _

instance (loanId : String) (seq : Int) (f : Field) (v : Value) :
    Keeps Desk.Grows (editEntry loanId seq f v) := Keeps.grows

instance (loanId : String) (seq : Int) : Keeps Desk.Grows (eraseEntry loanId seq) := Keeps.grows

end Tampering

/-! ## Turns -/

/-- Every operation lets the rows grow, whether it goes well or fails. -/
instance {β : Type} (o : Op β) : Keeps Desk.Grows o.run := by
  cases o <;> unfold Op.run <;> infer_instance

/-! ### Calls -/

theorem Appended.grows {r : AuditRecord} (h : Appended loanId r t e t') : Grows t t' := by
  intro ht
  obtain ⟨s, hs, hpay, -, -⟩ := h.isSealed.texts
  have made : e.IsMade ((t.newest? e.loanId).map (·.hash)) := by
    rw [h.ofLoan]
    exact ⟨h.isSealed.prevHash, by rw [hpay]; exact isDigest_digestOf s, h.isSealed.hash, s, hs⟩
  rw [h.tables]
  exact ⟨ht.logged (by rw [h.ofLoan]; exact h.seq) made, List.prefix_append _ _⟩

theorem Remarked.grows (h : Remarked loanId t t') : Grows t t' := by
  induction h with
  | same hs => exact .of_same hs.entries hs.counters
  | append _ _ ha hs ih => exact (ih.trans ha.grows).trans (.of_same hs.entries hs.counters)

/-- Every call of an engine lets the rows grow. -/
theorem told_grows {g : Engine} {c : Call} {a : Answer} (h : g.Told t c a t') : Grows t t' := by
  cases h with
  | @opened loanId founderId _ _ _ _ _ ha =>
    have opened : Grows t { t with loans := t.loans ++ [Loans.initial loanId founderId g.definition] } :=
      .of_same rfl rfl
    exact opened.trans ha.grows
  | ignored _ _ _ ha => exact ha.grows
  | applied _ _ _ hr hm ha => exact (hr.grows.trans (.of_same hm.entries hm.counters)).trans ha.grows
  | paid _ hr => exact hr.grows

/-! ### Blocks and runs -/

/-- Work in a transaction of its own leaves the committed rows, or commits those of its session. -/
theorem scope_store {α : Type} {x : Work α} [Keeps Desk.Near x] (hd : d.IsHonest) :
    ((scope x).desk d).store = d.store ∨
      ∃ a d₁, x (start.desk d) = .ok a d₁ ∧ ((scope x).desk d).store = d₁.session.tables := by
  obtain ⟨log, hs⟩ := start_run d
  have hb : Desk.Begun { d with session := .of d.store, log } { d with session := .of d.store, log } :=
    ⟨rfl, rfl, rfl, Nat.le_refl _, rfl, rfl⟩
  rw [Work.desk_of_ok hs]
  unfold scope
  rw [Work.desk_bind_of_ok hs]
  cases hx : x { d with session := .of d.store, log } with
  | error e d₁ =>
    have near : Desk.Near _ d₁ := Keeps.error hx
    rw [Work.desk_bind_of_ok (Work.attempt_of_error hx)]
    -- there is nothing to be committed, so that the work may as well have failed at once
    have settled : Settled (some <$> (throw e : Work α)) (fun _ => false) _ (finish (.error e) d₁) :=
      finish_settled (near.isHonest hd) near hb nofun
    rcases Settled.store (x := fun _ => finish (.error e) d₁) settled with h | ⟨_, _, _, _, hw, _⟩
    · exact .inl h
    · obtain ⟨_, hw, -⟩ := Work.map_ok hw
      cases hw
  | ok a d₁ =>
    have near : Desk.Near _ d₁ := Keeps.ok hx
    rw [Work.desk_bind_of_ok (Work.attempt_of_ok hx)]
    have settled : Settled (some <$> fun _ => .ok a d₁) (fun _ => false) _ (finish (.ok a) d₁) :=
      finish_settled (near.isHonest hd) near hb fun h => by cases h; rfl
    rcases Settled.store (x := fun _ => finish (.ok a) d₁) settled with h | ⟨_, _, _, _, hw, h⟩
    · exact .inl h
    · obtain ⟨_, hw, -⟩ := Work.map_ok hw
      cases hw
      exact .inr ⟨a, d₁, rfl, h⟩

theorem turn_beside (d : Desk) (x : Turn) : (d.prepared x.clock x.disturbance).Beside (d.turn x) := by
  obtain ⟨clock, z, job⟩ := x
  unfold Desk.turn Job.run
  cases job with
  | call g c =>
    rw [desk_discard]
    exact (Holds.holds : Kept Desk.Beside _ (g.serve c)) _
  | block b => exact (Holds.holds : Kept Desk.Beside _ (scope b.run)) _

/-- While entries are guarded, the committed rows grow in every turn. -/
theorem turn_grows {x : Turn} (hx : x.disturbance.IsHonest) (hg : d.isGuarded = true) :
    Grows d.store (d.turn x).store := by
  obtain ⟨clock, z, job⟩ := x
  cases job with
  | call g c =>
    have called : (d.turn ⟨clock, z, .call g c⟩).store = d.store ∨ _ := call_turn hx
    rcases called with h | ⟨a, ht⟩
    · exact .of_eq h
    · exact told_grows ht
  | block b =>
    rcases scope_store (x := b.run) (d := d.prepared clock z) hx with h | ⟨a, d₁, hr, h⟩
    · exact .of_eq h
    · obtain ⟨log, hs⟩ := start_run (d.prepared clock z)
      rw [Work.desk_of_ok hs] at hr
      have grown := (Keeps.ok (R := Desk.Grows) hr).rows hg
      exact h ▸ grown

theorem after_ranked {ts : List Turn} (hts : ∀ x ∈ ts, x.disturbance.IsHonest) :
    ∀ {d : Desk}, d.isGuarded = true → Ranked d.store →
      (d.after ts).isGuarded = true ∧ Ranked (d.after ts).store := by
  induction ts with
  | nil => exact fun hg h => ⟨hg, h⟩
  | cons x ts ih =>
    intro d hg h
    have hx := hts x List.mem_cons_self
    exact ih (fun y hy => hts y (List.mem_cons_of_mem _ hy)) ((turn_beside d x).guarded.trans hg) (turn_grows hx hg h).1

end LoanLedger.Ledger
