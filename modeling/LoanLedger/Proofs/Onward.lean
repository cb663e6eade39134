import LoanLedger.Proofs.Calm
import LoanLedger.Proofs.Chain
import LoanLedger.Proofs.Writing

/-!
# Recording undisturbed

* `Desk.Onward d d'` : the session can go on as before: it is sound if it was, and knows the same loans;
* `Timestamp.IsTimely`, `Clock.IsTimely` : times that are known in UTC, and clocks that show one;
* `Tables.HasRoom t loanId n` : the log of a loan has room for `n` more entries;
* `Sequence.next_calm`, `AuditLog.append_calm` : where nothing disturbs the work, a number is given and an
  entry accepted whenever there is room, unless its key is taken; `AuditLog.append_recorded` : then it is rejected as
  a duplicate.
-/

namespace LoanLedger

structure Calendar.Timestamp.IsTimely (t : Timestamp) : Prop where
  isAware : t.isAware = true
  inUtc : ∃ u, t.toUtc? = some u

def Clock.IsTimely (c : Clock) : Prop := ∃ t, c.now? = .ok t ∧ t.IsTimely

namespace Ledger

variable {α : Type} {d d' d₁ d₂ : Desk} {t : Tables} {loanId : String} {r : AuditRecord}

/-! ## Going on -/

/-- The session is sound if it was, and knows the same loans. -/
structure Desk.Onward (d d' : Desk) : Prop extends Desk.Near d d' where
  broken : d'.session.isBroken = d.session.isBroken
  loans : d'.session.known.loans = d.session.known.loans

namespace Desk.Onward

theorem refl (d : Desk) : d.Onward d := ⟨Frame.refl d, rfl, rfl⟩

theorem trans (h : d.Onward d₁) (h' : d₁.Onward d₂) : d.Onward d₂ where
  toNear := Frame.trans h.toNear h'.toNear
  broken := h'.broken.trans h.broken
  loans := h'.loans.trans h.loans

theorem isReady (h : d.Onward d') (hd : d.IsReady) : d'.IsReady where
  toIsCalm := h.toNear.isCalm hd.toIsCalm
  sound := h.broken.trans hd.sound

theorem isTimely (h : d.Onward d') (hd : d.clock.IsTimely) : d'.clock.IsTimely := by
  rw [h.toNear.clock]
  exact hd

theorem withTables (d : Desk) (t : Tables) : d.Onward (d.withTables t) := ⟨Wide.session d _, rfl, rfl⟩

end Desk.Onward

theorem emit_calm (l : Log.Level) (s m : String) (fs : List (String × Value)) (d : Desk) :
    ∃ d', emit l s m fs d = .ok () d' ∧ d.Onward d' ∧ d'.session = d.session ∧ d'.ids = d.ids := by
  obtain ⟨log, hr⟩ := emit_run l s m fs d
  exact ⟨_, hr, ⟨Frame.log d log, rfl, rfl⟩, rfl, rfl⟩

theorem now_calm {time : Calendar.Timestamp} (h : d.clock.now? = .ok time) : now d = .ok time d := by
  unfold now
  rw [Work.bind_of_ok (Work.get_run d), h]
  rfl

theorem utc_calm {time : Calendar.Timestamp} (h : time.IsTimely) : ∃ u, utc time d = .ok u d := by
  obtain ⟨u, hu⟩ := h.inUtc
  have hsome : time.offset.isNone = false := by
    have haware := h.isAware
    rw [Calendar.Timestamp.isAware] at haware
    rw [Option.isNone_eq_false_iff, haware]
  refine ⟨u, ?_⟩
  unfold utc
  rw [hsome, hu]
  rfl

/-! ## Numbers -/

namespace Sequence

theorem raise_calm {c : Counter} (hd : d.IsReady) (hf : Column.fitsInteger (c.value + 1) = true) :
    ∃ d', raise c d = .ok (c.value + 1) d' ∧ d.Onward d' := by
  have hc := change_calm (g := fun t => if Column.fitsInteger (c.value + 1) then
    .ok (t.setCounter c.name (c.value + 1)) else .error .tooLarge) hd (if_pos hf)
  obtain ⟨d', he, ho, -⟩ := emit_calm .debug "services.sequence" "sequence_allocated"
    [("sequence_name", .text c.name), ("value", .int (c.value + 1))]
    (d.withTables (d.session.tables.setCounter c.name (c.value + 1)))
  exact ⟨d', (Work.bind_of_ok hc).trans (Work.bind_of_ok he), (Desk.Onward.withTables d _).trans ho⟩

theorem locked_calm (hd : d.IsReady) (name : String) :
    locked name d = .ok (d.session.tables.counter? name) d :=
  (call_calm hd.toIsCalm _ _ _).trans (query_calm hd _)

/-- Where nothing disturbs the work a number is given, if it can be kept. -/
theorem next_calm {name : String} (hd : d.IsReady)
    (hf : Column.fitsInteger (d.session.tables.nextNumber name) = true) :
    ∃ n d', next name d = .ok n d' ∧ d.Onward d' := by
  unfold next
  rw [Work.bind_of_ok (locked_calm hd name)]
  unfold Tables.nextNumber at hf
  cases hc : d.session.tables.counter? name with
  | some c =>
    rw [hc] at hf
    obtain ⟨d', hr, ho⟩ := raise_calm hd hf
    exact ⟨_, d', hr, ho⟩
  | none =>
    have hadd : d.session.tables.addCounter? ⟨name, 1⟩ =
        some { d.session.tables with counters := d.session.tables.counters ++ [⟨name, 1⟩] } :=
      Tables.addCounter?_eq_some.mpr ⟨hc, rfl⟩
    have ho :=
      Desk.Onward.withTables d { d.session.tables with counters := d.session.tables.counters ++ [⟨name, 1⟩] }
    have hs := savepoint_calm (y := pure false) hd
      (show (do insert (·.addCounter? ⟨name, 1⟩); pure true : Work Bool) d = .ok true _ from
        Work.bind_of_ok (insert_calm (g := fun t => t.addCounter? ⟨name, 1⟩) hd hadd)) (ho.isReady hd)
    obtain ⟨d', he, ho', -⟩ := emit_calm .debug "services.sequence" "sequence_allocated"
      [("sequence_name", .text name), ("value", .int 1)] _
    exact ⟨1, d', (Work.bind_of_ok hs).trans (Work.bind_of_ok he), ho.trans ho'⟩

end Sequence

/-! ## Entries -/

/-- The log of a loan has room for so many more entries. -/
def Tables.HasRoom (t : Tables) (loanId : String) (n : Nat) : Prop :=
  (t.logOf loanId).length + n < Nat.pow 2 63

theorem HasRoom.fits (hc : Chained t) (hr : t.HasRoom loanId 1) :
    Column.fitsInteger (t.nextNumber (Sequence.ofLoan loanId)) = true := by
  rw [hc.nextNumber, Column.fitsInteger, Bool.and_eq_true, decide_eq_true_iff, decide_eq_true_iff]
  unfold Tables.HasRoom at hr
  have hpos : 0 < Nat.pow 2 63 := by decide
  omega

theorem Chained.place_free (hc : Chained t) (loanId : String) :
    t.entryAt? loanId (t.nextNumber (Sequence.ofLoan loanId)) = none := by
  rw [Tables.entryAt?, List.find?_eq_none]
  intro e he hp
  simp only [Bool.and_eq_true, decide_eq_true_eq] at hp
  have hm : e ∈ t.logOf loanId := List.mem_filter.mpr ⟨he, by simpa using hp.1⟩
  have hle := (hc.chain loanId).seq_le e hm
  rw [hp.2, hc.nextNumber] at hle
  omega

/-- What is recorded can be written, and its time is known in UTC. -/
structure AuditRecord.IsSound (r : AuditRecord) : Prop where
  isJson : r.IsJson
  isWritable : r.IsWritable
  isTimely : r.timestamp.IsTimely

namespace AuditLog

theorem store_calm {e : Entry} (hd : d.IsReady) (hs : e.stored? = some e)
    (hf : Column.fitsInteger e.seq = true) (hfree : d.session.tables.isTaken e = false) :
    ∃ d', store e d = .ok () d' ∧ d.Onward d' := by
  have hadd : d.session.tables.addEntry? e =
      some { d.session.tables with entries := d.session.tables.entries ++ [e] } :=
    Tables.addEntry?_eq_some.mpr ⟨hfree, rfl⟩
  have ho := Desk.Onward.withTables d { d.session.tables with entries := d.session.tables.entries ++ [e] }
  refine ⟨_, (Work.bind_of_ok (change_calm hd ?_)).trans rfl, ho.trans ⟨Frame.know _ _, rfl, rfl⟩⟩
  dsimp only
  rw [hs]
  dsimp only
  rw [hf, hadd]
  rfl

theorem store_refused {e : Entry} (hd : d.IsReady) (hs : e.stored? = some e) (hf : Column.fitsInteger e.seq = true)
    (htaken : d.session.tables.isTaken e = true) : store e d = .error (.storage .conflict) d.broken := by
  have refused : d.session.tables.addEntry? e = none := if_pos htaken
  refine Work.bind_of_error (change_refused hd ?_)
  rw [hs]
  dsimp only
  rw [hf, refused]
  rfl

/-- Where there is room an entry is made that can be stored, in a place that is free. -/
theorem next_made (hd : d.IsReady) (ht : d.clock.IsTimely) (hc : Chained d.session.tables)
    (hroom : d.session.tables.HasRoom loanId 1) (hr : r.IsSound) :
    ∃ e d₁, next loanId r d = (do store e; pure e : Work Entry) d₁ ∧ d.Onward d₁ ∧ e.stored? = some e ∧
      Column.fitsInteger e.seq = true ∧
      d₁.session.tables.isTaken e = r.key.any fun key => (d.session.tables.entryByKey? key).isSome := by
  have hfits := HasRoom.fits hc hroom
  obtain ⟨n, d₁, hn, o₁⟩ := Sequence.next_calm hd hfits
  obtain ⟨rfl, htables⟩ := Sequence.next_ok hn
  have hq := query_calm (o₁.isReady hd) (·.newest? loanId)
  obtain ⟨timestamp, hts⟩ := utc_calm (d := d₁) hr.isTimely
  obtain ⟨time, hnow, htime⟩ := o₁.isTimely ht
  obtain ⟨recordedAt, hrec⟩ := utc_calm (d := d₁) htime
  -- the entry is sealed, and stored as it is
  obtain ⟨e, he⟩ := Entry.sealed?_ok
    (e := draft loanId (d.session.tables.nextNumber (Sequence.ofLoan loanId)) r timestamp recordedAt) rfl rfl
    hr.isWritable ((d₁.session.tables.newest? loanId).map (·.hash))
  obtain ⟨-, payloadHash, hash, hfields⟩ := Entry.sealed?_eq he
  have hplain : e.IsPlain := by
    rw [hfields]
    exact ⟨Calendar.Timestamp.isUtc_of_toUtc? (utc_ok hts).1, Calendar.Timestamp.isUtc_of_toUtc? (utc_ok hrec).1,
      hr.isJson⟩
  have hstored : e.stored? = some e := Entry.stored?_ok hplain (by rw [hfields]; rfl) hr.isWritable
  have hentries : d₁.session.tables.entries = d.session.tables.entries := by rw [htables, Tables.counted_entries]
  refine ⟨e, d₁, ?_, o₁, hstored, by rw [hfields]; exact hfits, ?_⟩
  · unfold next
    rw [Work.bind_of_ok hn, Work.bind_of_ok hq, Work.bind_of_ok hts, Work.bind_of_ok (now_calm hnow),
      Work.bind_of_ok hrec, he]
    exact Work.bind_of_ok (show Work.ofExcept (Except.ok e) d₁ = .ok e d₁ from rfl)
  · have hloan : e.loanId = loanId := by rw [hfields]; rfl
    have hseq : e.seq = d.session.tables.nextNumber (Sequence.ofLoan loanId) := by rw [hfields]; rfl
    have hkeyOf : e.key = r.key := by rw [hfields]; rfl
    rw [isTaken_of_entries hentries, Tables.isTaken, hloan, hseq, hkeyOf, hc.place_free loanId]
    rfl

theorem next_calm (hd : d.IsReady) (ht : d.clock.IsTimely) (hc : Chained d.session.tables)
    (hroom : d.session.tables.HasRoom loanId 1) (hr : r.IsSound)
    (hkey : ∀ key, r.key = some key → d.session.tables.entryByKey? key = none) :
    ∃ e d', next loanId r d = .ok e d' ∧ d.Onward d' := by
  obtain ⟨e, d₁, hn, o₁, hs, hf, htaken⟩ := next_made hd ht hc hroom hr
  have free : d₁.session.tables.isTaken e = false := by
    rw [htaken]
    cases hk : r.key with
    | none => rfl
    | some key => simp [hkey key hk]
  obtain ⟨d₂, hstore, o₂⟩ := store_calm (o₁.isReady hd) hs hf free
  exact ⟨e, d₂, hn.trans (Work.bind_of_ok hstore), o₁.trans o₂⟩

theorem next_refused {key : String} {entry : Entry} (hd : d.IsReady) (ht : d.clock.IsTimely)
    (hc : Chained d.session.tables) (hroom : d.session.tables.HasRoom loanId 1) (hr : r.IsSound) (hk : r.key = some key)
    (he : d.session.tables.entryByKey? key = some entry) :
      ∃ d', next loanId r d = .error (.storage .conflict) d' := by
  obtain ⟨e, d₁, hn, o₁, hs, hf, htaken⟩ := next_made hd ht hc hroom hr
  rw [hk, Option.any_some, he] at htaken
  exact ⟨_, hn.trans (Work.bind_of_error (store_refused (o₁.isReady hd) hs hf htaken))⟩

/-- Where nothing disturbs the work an entry is accepted when there is room, unless its key is taken. -/
theorem append_calm (hd : d.IsReady) (ht : d.clock.IsTimely) (hc : Chained d.session.tables)
    (hroom : d.session.tables.HasRoom loanId 1) (hr : r.IsSound)
    (hkey : ∀ key, r.key = some key → d.session.tables.entryByKey? key = none) :
    ∃ e d', append loanId r d = .ok (some e) d' ∧ d.Onward d' ∧
      Appended loanId r d.session.tables e d'.session.tables := by
  obtain ⟨e, d₁, hn, o₁⟩ := next_calm hd ht hc hroom hr hkey
  obtain ⟨d₂, he, o₂, -⟩ := emit_calm .info "services.ledger" "audit_entry_appended"
    [("loan_id", .text loanId), ("seq", .int e.seq), ("audit_event", .text r.event.word)] d₁
  have ha : append loanId r d = .ok (some e) d₂ := by
    refine (call_calm hd.toIsCalm _ _ _).trans ((Work.bind_of_ok (guarded_of_ok ?_)).trans (Work.bind_of_ok he))
    cases r.key with
    | none => exact hn
    | some key => exact savepoint_calm hd hn (o₁.isReady hd)
  rcases append_ok hr.isJson ha with ⟨hnone, -⟩ | ⟨e', hsome, happ⟩
  · cases hnone
  · cases hsome
    exact ⟨e, d₂, ha, o₁.trans o₂, happ⟩

/-- What is recorded under a key is found, in the form in which the session knows it. -/
theorem findTransition_found {key : String} {entry : Entry} (hd : d.IsReady)
    (he : d.session.tables.entryByKey? key = some entry) :
    findTransition key d = .ok (some (recalled d.session.known entry)) d := by
  have asked : ask (fun t => (t.entryByKey? key).toList) d = .ok [recalled d.session.known entry] d := by
    unfold ask
    rw [Work.bind_of_ok (query_calm hd _), Work.bind_of_ok (Work.session_run d), he]
    rfl
  exact (call_calm hd.toIsCalm _ _ _).trans (guarded_of_ok ((Work.bind_of_ok asked).trans rfl))

theorem append_recorded {key : String} {entry : Entry} (hd : d.IsReady) (ht : d.clock.IsTimely)
    (hc : Chained d.session.tables) (hroom : d.session.tables.HasRoom loanId 1) (hr : r.IsSound) (hk : r.key = some key)
    (he : d.session.tables.entryByKey? key = some entry) :
    ∃ d', append loanId r d = .error (.failure (.duplicateTransition loanId key)) d' := by
  obtain ⟨d₁, hn⟩ := next_refused hd ht hc hroom hr hk he
  have near : d.Near d₁ := Keeps.error hn
  have resumed : Desk.IsReady { d₁ with session := d.session } := ⟨{ near.isCalm hd.toIsCalm with }, hd.sound⟩
  have after : afterConflict loanId key { d₁ with session := d.session } =
      .error (.failure (.duplicateTransition loanId key)) { d₁ with session := d.session } :=
    (Work.bind_of_ok (findTransition_found resumed he)).trans rfl
  refine ⟨{ d₁ with session := d.session }, (call_calm hd.toIsCalm _ _ _).trans (Work.bind_of_error ?_)⟩
  rw [hk]
  exact (Work.recover_of_error ((savepoint_taken hd hn).trans after)).trans rfl

end AuditLog

end Ledger

end LoanLedger
