import LoanLedger.Proofs.Ordered
import LoanLedger.Proofs.Tampered

/-!
# What is accepted is verified where it keeps its order

The content hash of an entry is taken of the attributes as they were handed in, and compared with that of the
attributes as they are read back:

* `AuditRecord.KeepsOrder r` : the canonical JSON of the attributes comes in the order of the names;
* `Filing` : a record, the entry that was made for it, and the row that was stored; `Filing.IsAccepted.texts` : entry
  and row have the same content text exactly where the record keeps its order;
* `Desk.Files` : the entries that were added are rows of accepted entries; all operations keep that, and `turn_files`
  : so does every turn;
* `Extended t t' loanId fs` : the log of a loan grew by the rows of `fs`, and is verified when these keep their order;
* `accepted_verified` : so it is with every turn behind a verified log, and with a record that is appended alone.
-/

namespace LoanLedger.Ledger

open Engine

variable {d d' : Desk} {t t' t₁ : Tables} {loanId : String} {e e' : Entry} {es xs ys : List Entry}

/-! ## Content texts -/

namespace Entry

variable {as as' : Entries} {s : String}

/-- Attributes with the same JSON are hashed alike. -/
theorem contentText?_congr (ha : e.attributes = .map as)
    (same : Json.ofValue Json.canonical (.map as') = Json.ofValue Json.canonical (.map as)) :
    ({ e with attributes := .map as' } : Entry).contentText? = e.contentText? := by
  have fields (t : Audit.Tag) : Json.ofValue Json.canonical (.map (e.fields t as')) =
      Json.ofValue Json.canonical (.map (e.fields t as)) := by
    rw [Json.ofValue, Json.ofValue, Json.ofEntries_eq_map, Json.ofEntries_eq_map]
    simp only [Entry.fields, List.map_cons, List.map_nil, same]
  unfold contentText? content?
  rw [details?_of_map ha, details?_of_map (e := { e with attributes := .map as' }) rfl]
  cases ht : e.tag? with
  | error x => rw [show ({ e with attributes := .map as' } : Entry).tag? = .error x from ht]; rfl
  | ok t =>
    rw [show ({ e with attributes := .map as' } : Entry).tag? = .ok t from ht]
    change ((Json.ofValue Json.canonical (.map (e.fields t as'))).mapError ContentError.json >>= _) = _
    rw [fields]
    rfl

theorem attributes_eq_of_text (ha : e.attributes = .map as) (ha' : e'.attributes = .map as')
    (hn : Value.EntriesHaveNumbers as) (hn' : Value.EntriesHaveNumbers as') (h : e.contentText? = .ok s)
    (h' : e'.contentText? = .ok s) :
    Json.ofValue Json.canonical (.map as) = Json.ofValue Json.canonical (.map as') := by
  obtain ⟨t, t', -, -, values⟩ := fields_of_text ha ha' hn hn' h h'
  have attributes := congrArg (·[5]?) values
  exact Option.some.inj attributes

end Entry

/-! ## Records, entries and rows -/

/-- The canonical JSON of the attributes comes in the order of the names, at every depth. -/
def AuditRecord.KeepsOrder (r : AuditRecord) : Prop :=
  ∀ j, Json.ofValue Json.canonical (.map r.attributes) = .ok j → j.IsOrdered

/-- Each binary fraction in the attributes is a number of the format. -/
def AuditRecord.HasNumbers (r : AuditRecord) : Prop := Value.EntriesHaveNumbers r.attributes

theorem AuditRecord.KeepsOrder.of_hasOwnTexts {r : AuditRecord} (h : (Value.map r.attributes).HasOwnTexts) :
    r.KeepsOrder :=
  fun _ hj => Json.isOrdered_of_ofValue rfl Json.canonical_writesTexts _ h hj

/-- A record, an entry that was made for it, and the row that was stored. -/
structure Filing where
  record : AuditRecord
  entry : Entry
  row : Entry

namespace Filing

variable {f : Filing}

/-- The entry was made for the record, and the row is what was stored of it. -/
structure IsAccepted (f : Filing) : Prop where
  made : ∃ d d', AuditLog.next f.entry.loanId f.record d = .ok f.entry d'
  stored : f.entry.stored? = some f.row

namespace IsAccepted

/-- The entry has the attributes of the record, and is sealed; the row has the attributes that were read back. -/
theorem inv (h : f.IsAccepted) : f.entry.attributes = .map f.record.attributes ∧
    f.entry.event = f.record.event.word ∧ (∃ prevHash, f.entry.IsSealed prevHash) ∧
    ∃ ms, Json.ofValue Json.storage (.map f.record.attributes) = .ok (.object ms) ∧
      f.row = { f.entry with attributes := Json.toValue (.object ms) } := by
  obtain ⟨d, d', hn⟩ := h.made
  obtain ⟨timestamp, recordedAt, row, htime, hrecorded, hseal, -, -, -⟩ := AuditLog.next_stored hn
  obtain ⟨hsealed, payloadHash, hash, hfields⟩ := Entry.sealed?_eq hseal
  have attributes : f.entry.attributes = .map f.record.attributes := by rw [hfields]; rfl
  obtain ⟨j, hj, hrow⟩ := Entry.stored?_utc (by rw [hfields]; exact Calendar.Timestamp.isUtc_of_toUtc? htime)
    (by rw [hfields]; exact hrecorded) h.stored
  rw [attributes] at hj
  obtain ⟨ms, -, rfl⟩ := Json.ofValue_map_ok hj
  exact ⟨attributes, by rw [hfields]; rfl, ⟨_, hsealed⟩, ms, hj, hrow⟩

theorem loanId_row (h : f.IsAccepted) : f.row.loanId = f.entry.loanId := by
  obtain ⟨-, -, -, ms, -, hrow⟩ := h.inv
  rw [hrow]

/-- The content hash of the row is the digest of the content text of the entry. The row has the same content text
where the record keeps its order, and only there. -/
theorem texts (h : f.IsAccepted) : ∃ s s', f.entry.contentText? = .ok s ∧ f.row.contentText? = .ok s' ∧
    f.row.payloadHash = digestOf s ∧ (f.record.KeepsOrder → s' = s) ∧
    (f.record.HasNumbers → s' = s → f.record.KeepsOrder) := by
  obtain ⟨attributes, event, ⟨prevHash, hsealed⟩, ms, hms, hrow⟩ := h.inv
  obtain ⟨s, hs, hpay, -, -⟩ := hsealed.texts
  obtain ⟨s', hs'⟩ := Entry.content_of_stored event attributes h.stored
  obtain ⟨j, hj⟩ := Entry.attributes_of_text attributes hs
  obtain ⟨k, hk, same⟩ := Json.reread_eq_iff hms hj
  refine ⟨s, s', hs, hs', by rw [hrow]; exact hpay, fun ordered => ?_, fun numbers heq => ?_⟩
  · rw [same.mpr (ordered j hj)] at hk
    rw [hrow, Json.toValue, Value.ofPairs, Entry.contentText?_congr attributes (hk.trans hj.symm), hs] at hs'
    exact (Except.ok.inj hs').symm
  · have proper : (Json.object ms).IsProper :=
      Json.isProper_of_ofValue Json.storage_writesTexts (.map f.record.attributes) numbers hms
    have stored := Value.IsProper.hasNumbers _ (Json.isProper_toValue _ proper)
    have reread : f.row.attributes = Json.toValue (.object ms) := by rw [hrow]
    rw [heq] at hs'
    rw [Json.toValue, Value.ofPairs] at stored reread hk
    have attributesEq := Entry.attributes_eq_of_text reread attributes stored numbers hs' hs
    rw [hk, hj] at attributesEq
    intro j' hj'
    rw [hj] at hj'
    cases hj'
    exact same.mp (Except.ok.inj attributesEq)

end IsAccepted

end Filing

/-! ## Rows that are filed -/

/-- The entries that were added are rows of accepted entries. -/
def Files (t t' : Tables) : Prop :=
  ∃ fs : List Filing, t'.entries = t.entries ++ fs.map (·.row) ∧ ∀ f ∈ fs, f.IsAccepted

namespace Files

theorem of_entries (h : t'.entries = t.entries) : Files t t' :=
  ⟨[], by rw [h, List.map_nil, List.append_nil], fun _ hf => absurd hf List.not_mem_nil⟩

theorem trans (h : Files t t₁) (h' : Files t₁ t') : Files t t' := by
  obtain ⟨fs, he, hf⟩ := h
  obtain ⟨gs, he', hg⟩ := h'
  exact ⟨fs ++ gs, by rw [he', he, List.map_append, List.append_assoc], List.forall_mem_append.mpr ⟨hf, hg⟩⟩

theorem logOf (h : Files t t') (loanId : String) : ∃ fs : List Filing,
    t'.logOf loanId = t.logOf loanId ++ fs.map (·.row) ∧ ∀ f ∈ fs, f.IsAccepted ∧ f.entry.loanId = loanId := by
  obtain ⟨fs, he, hf⟩ := h
  refine ⟨fs.filter (·.row.loanId = loanId), ?_, fun f hm => ?_⟩
  · rw [Tables.logOf, Tables.logOf, he, List.filter_append, List.filter_map]
    rfl
  · obtain ⟨hm, ofLoan⟩ := List.mem_filter.mp hm
    exact ⟨hf f hm, by rw [← (hf f hm).loanId_row]; simpa using ofLoan⟩

end Files

def Desk.Files (d d' : Desk) : Prop := Ledger.Files d.session.tables d'.session.tables

theorem Desk.Files.of_entries (h : d'.session.tables.entries = d.session.tables.entries) : d.Files d' :=
  Ledger.Files.of_entries h

instance : Frame Desk.Files where
  refl _ := .of_entries rfl
  trans h h' := Ledger.Files.trans h h'
  log _ _ := .of_entries rfl
  pass _ _ := .of_entries rfl
  know _ _ := .of_entries rfl
  broken _ := .of_entries rfl
  check _ _ _ := .of_entries rfl
  back _ := .of_entries rfl

instance : Issuing Desk.Files where
  freshId _ := .of_entries rfl

theorem Desk.CountsAtMost.files {name : String} (h : d.CountsAtMost name d') : d.Files d' := by
  rcases h with h | h
  · exact .of_entries (by rw [h])
  · exact .of_entries (by rw [h, Tables.counted_entries])

instance (name : String) : Keeps Desk.Files (Sequence.next name) where
  holds := .intro (fun d n d' h => .of_entries (by rw [(Sequence.next_ok h).2, Tables.counted_entries]))
    fun d x d' h => (Sequence.next_error h).files

namespace AuditLog

/-- The row of an entry that was made is filed behind the others. -/
theorem next_filed {r : AuditRecord} (h : next loanId r d = .ok e d') : ∃ row, (Filing.mk r e row).IsAccepted ∧
    e.loanId = loanId ∧ d'.session.tables.entries = d.session.tables.entries ++ [row] := by
  obtain ⟨timestamp, recordedAt, row, -, -, hseal, hrow, -, ht⟩ := next_stored h
  obtain ⟨-, payloadHash, hash, hfields⟩ := Entry.sealed?_eq hseal
  have ofLoan : e.loanId = loanId := by rw [hfields]; rfl
  exact ⟨row, ⟨⟨d, d', by rw [ofLoan]; exact h⟩, hrow⟩, ofLoan, by rw [ht]⟩

instance (loanId : String) (r : AuditRecord) : Keeps Desk.Files (next loanId r) where
  holds := by
    refine .intro (fun d e d' h => ?_) fun d x d' h => (next_error h).files
    obtain ⟨row, accepted, -, ht⟩ := next_filed h
    exact ⟨[⟨r, e, row⟩], ht, List.forall_mem_singleton.mpr accepted⟩

end AuditLog

theorem Keeps.files {α : Type} {x : Work α} [Keeps Desk.SameLogs x] : Keeps Desk.Files x where
  holds d := .of_entries ((Holds.holds : Kept Desk.SameLogs α x) d).entries

instance (l : Loan) : Keeps Desk.Files (Loans.add l) := Keeps.files

instance (loanId : String) : Keeps Desk.Files (Loans.bump loanId) := Keeps.files

instance (l : Loan) (state : String) : Keeps Desk.Files (Loans.write l state) := Keeps.files

instance (x : Disbursement) : Keeps Desk.Files (Disbursements.add x) := Keeps.files

instance (x : Disbursement) (paidAt : Calendar.Timestamp) : Keeps Desk.Files (Disbursements.pay x paidAt) := Keeps.files

instance (g : Engine) (c : Call) : Keeps Desk.Files (g.work c) := by
  cases c with
  | open_ loanId founderId actor => unfold work; infer_instance
  | handle e => unfold work; exact .bind inferInstance fun r => by cases r <;> infer_instance
  | pay loanId id actor => unfold work; infer_instance

/-- While entries are guarded, the entries that were added are rows of accepted entries. -/
structure Desk.FilesGuarded (d d' : Desk) : Prop where
  guarded : d'.isGuarded = d.isGuarded
  files : d.isGuarded = true → d.Files d'

theorem Desk.FilesGuarded.of_session (hg : d'.isGuarded = d.isGuarded) (hs : d'.session.tables = d.session.tables) :
    d.FilesGuarded d' :=
  ⟨hg, fun _ => .of_entries (by rw [hs])⟩

instance : Frame Desk.FilesGuarded where
  refl _ := .of_session rfl rfl
  trans h h' := ⟨h'.guarded.trans h.guarded, fun hg => Frame.trans (h.files hg) (h'.files (h.guarded.trans hg))⟩
  log _ _ := .of_session rfl rfl
  pass _ _ := .of_session rfl rfl
  know _ _ := .of_session rfl rfl
  broken _ := .of_session rfl rfl
  check _ _ _ := .of_session rfl rfl
  back h := .of_session h.guarded rfl

theorem Keeps.filesGuarded {α : Type} {x : Work α} [Keeps Desk.Files x] [Keeps Desk.Near x] :
    Keeps Desk.FilesGuarded x where
  holds d := ⟨((Holds.holds : Kept Desk.Near α x) d).guarded, fun _ => (Holds.holds : Kept Desk.Files α x) d⟩

theorem Keeps.filesGuarded_of_spares {α : Type} {x : Work α} [Keeps Desk.SparesLogs x] :
    Keeps Desk.FilesGuarded x where
  holds d := by
    have spared : Kept Desk.SparesLogs α x := Holds.holds
    exact ⟨(spared d).guarded, fun hg => .of_entries ((spared d).logs hg).entries⟩

/-- Every operation files what it adds to the entries, and an attempt to change one adds nothing. -/
instance {β : Type} (o : Op β) : Keeps Desk.FilesGuarded o.run := by
  cases o with
  | editEntry | eraseEntry => unfold Op.run; exact Keeps.filesGuarded_of_spares
  | _ => unfold Op.run; exact Keeps.filesGuarded

/-- While entries are guarded, what a turn adds to the committed entries are rows of accepted entries. -/
theorem turn_files {y : Turn} (hy : y.disturbance.IsHonest) (hg : d.isGuarded = true) :
    Files d.store (d.turn y).store := by
  obtain ⟨clock, z, job⟩ := y
  unfold Desk.turn Job.run
  cases job with
  | call g c =>
    rw [desk_discard]
    rcases (serve_settled g c (d := d.prepared clock z) hy).store with hs | ⟨d₀, a, d₁, hb, hw, hs⟩
    · rw [hs]
      exact .of_entries rfl
    · have filed : d₀.Files d₁ := Keeps.ok hw
      rw [Desk.Files, hb.session] at filed
      rw [hs]
      exact filed
  | block b =>
    rcases scope_store (x := b.run) (d := d.prepared clock z) hy with h | ⟨a, d₁, hr, h⟩
    · rw [h]
      exact .of_entries rfl
    · obtain ⟨log, hs⟩ := start_run (d.prepared clock z)
      rw [Work.desk_of_ok hs] at hr
      have filed := (Keeps.ok (R := Desk.FilesGuarded) hr).files hg
      rw [h]
      exact filed

/-- A record that is appended alone and committed adds the row of the entry that is told, and no other. -/
theorem AuditLog.appended_files {clock : Clock} {z : Disturbance} {r : AuditRecord} (hz : z.IsHonest)
    (ht : Ranked d.store)
    (h : scope (append loanId r) (d.prepared clock z) = .ok (some e) d') : ∃ row, (Filing.mk r e row).IsAccepted ∧
      e.loanId = loanId ∧ Ranked d'.store ∧ d'.store.entries = d.store.entries ++ [row] := by
  have settled := transaction_settled (append loanId r) (d := d.prepared clock z) hz
  rw [h] at settled
  cases settled with
  | nothing hn _ => cases hn
  | @done _ _ d₀ d₁ _ hb hw hstore =>
    obtain ⟨o, happend, ho⟩ := Work.map_ok hw
    cases ho
    rcases append_made happend with ⟨hnone, -, -⟩ | ⟨e', d₂, d₃, he, hn, hbefore, hafter⟩
    · cases hnone
    · cases he
      rw [hb.session] at hbefore
      obtain ⟨row, accepted, ofLoan, hentries⟩ := next_filed hn
      have grown := next_grows hn
      rw [hbefore] at grown hentries
      rw [← hafter, ← hstore] at grown hentries
      exact ⟨row, accepted, ofLoan, (grown ht).1, hentries⟩

/-! ## Logs that grow by accepted entries -/

theorem Filing.IsAccepted.sealed {f : Filing} (h : f.IsAccepted) (ordered : f.record.KeepsOrder)
    {prevHash : Option String} (made : f.row.IsMade prevHash) : f.row.IsSealed prevHash := by
  obtain ⟨s, s', -, hs', hpay, same, -⟩ := h.texts
  exact ⟨made.prevHash, by rw [Entry.payloadHash?, hs', same ordered, hpay]; rfl, made.hash⟩

theorem sound_of_ordered {fs : List Filing} (hs : AuditLog.firstBreak? none es = .ok none)
    (h : Rising (es ++ fs.map (·.row))) (hf : ∀ f ∈ fs, f.IsAccepted ∧ f.record.KeepsOrder) :
    AuditLog.firstBreak? none (es ++ fs.map (·.row)) = .ok none := by
  induction fs generalizing es with
  | nil => rwa [List.map_nil, List.append_nil]
  | cons f fs ih =>
    obtain ⟨⟨accepted, ordered⟩, hfs⟩ := List.forall_mem_cons.mp hf
    have next : AuditLog.firstBreak? none (es ++ [f.row]) = .ok none := by
      rw [firstBreak?_behind hs, firstBreak?_cons _ _ _ (Entry.checkEntry_of_sealed (accepted.sealed ordered h.made))]
      rfl
    have whole : es ++ (f :: fs).map (·.row) = es ++ [f.row] ++ fs.map (·.row) := by simp
    rw [whole] at h ⊢
    exact ih next h hfs

/-- The log of a loan grew by the rows of accepted entries. It is verified in a new session where all of them keep their
order, and breaks at the first that does not, unless two different texts that were hashed for it have the same digest.
-/
structure Extended (t t' : Tables) (loanId : String) (fs : List Filing) : Prop where
  rows : t'.entriesOf loanId = t.entriesOf loanId ++ fs.map (·.row)
  accepted : ∀ f ∈ fs, f.IsAccepted ∧ f.entry.loanId = loanId
  verified : (∀ f ∈ fs, f.record.KeepsOrder) → ∀ d : Desk, d.IsCalm → d.store = t' →
    ∃ d', scope (AuditLog.verify loanId) d = .ok () d'
  broken : ∀ xs f ys, fs = xs ++ f :: ys → (∀ g ∈ xs, g.record.KeepsOrder) → f.record.HasNumbers →
    ¬ f.record.KeepsOrder → BreaksAt t' loanId f.row.seq ∨ Collide [f.entry] [f.row]

theorem Extended.of_logOf {fs : List Filing} (ht : Ranked t) (ht' : Ranked t')
    (hs : AuditLog.firstBreak? none (t.entriesOf loanId) = .ok none)
    (rows : t'.logOf loanId = t.logOf loanId ++ fs.map (·.row))
    (accepted : ∀ f ∈ fs, f.IsAccepted ∧ f.entry.loanId = loanId) : Extended t t' loanId fs := by
  have log := entriesOf_of_rising (ht.rising loanId)
  have log' := entriesOf_of_rising (ht'.rising loanId)
  have rising := ht'.rising loanId
  rw [log] at hs
  rw [rows] at rising
  refine ⟨by rw [log, log', rows], accepted, fun ordered d hd hstore => ?_,
    fun xs f ys hfs ordered numbers lost => ?_⟩
  · refine scope_verify_sound hd ?_
    rw [hstore, log', rows]
    exact sound_of_ordered hs rising fun f hf => ⟨(accepted f hf).1, ordered f hf⟩
  · subst hfs
    have split : t'.logOf loanId = (t.logOf loanId ++ xs.map (·.row)) ++ f.row :: ys.map (·.row) := by rw [rows]; simp
    have front : AuditLog.firstBreak? none (t.logOf loanId ++ xs.map (·.row)) = .ok none :=
      sound_of_ordered hs (rising.of_isPrefix ⟨(f :: ys).map (·.row), by simp⟩)
        fun g hg => ⟨(accepted g (List.mem_append_left _ hg)).1, ordered g hg⟩
    obtain ⟨s, s', hs, hs', hpay, -, same⟩ := (accepted f (by simp)).1.texts
    by_cases hseal : f.row.IsSealed ((t.logOf loanId ++ xs.map (·.row)).getLast?.map (·.hash))
    · -- then both contents have the digest that the row holds
      obtain ⟨s₁, hs₁, hpay₁, -, -⟩ := hseal.texts
      rw [hs'] at hs₁
      cases hs₁
      rcases eq_or_collide f.entry f.row (Entry.mem_hashed hs) (Entry.mem_hashed hs')
        (hpay.symm.trans hpay₁) with heq | hc
      · exact absurd (same numbers heq.symm) lost
      · exact .inr hc
    · exact .inl (breaksAt_of_unsealed split (split ▸ (ht'.rising loanId).ascending) front ⟨s', hs'⟩ hseal)

/-- What is accepted is verified where it keeps its order. After any run of calls and blocks, let the log of a loan be
verified in a new session. Whatever is done in one more turn, disturbed in any way, the log grows by the rows of
entries that were accepted, and it is verified again in a new session where the canonical JSON of the attributes of
each comes in the order of the names; it breaks at the first entry of which this does not hold, unless two different
texts that were hashed for that entry have the same digest. So it does when a record is appended alone and committed:
its row is the one that comes in. -/
theorem accepted_verified (d : Desk) (ts : List Turn) (hd : d.store = .empty) (hg : d.isGuarded = true)
    (hts : ∀ x ∈ ts, x.disturbance.IsHonest) (loanId : String) (clock : Clock)
    (hv : ∃ d', scope (AuditLog.verify loanId) ((d.after ts).prepared clock .none) = .ok () d') :
    (∀ y : Turn, y.disturbance.IsHonest →
      ∃ fs, Extended (d.after ts).store ((d.after ts).turn y).store loanId fs) ∧
    ∀ (clock : Clock) (z : Disturbance) (r : AuditRecord) (e : Entry) (d' : Desk), z.IsHonest →
      scope (AuditLog.append loanId r) ((d.after ts).prepared clock z) = .ok (some e) d' →
        ∃ row, Extended (d.after ts).store d'.store loanId [⟨r, e, row⟩] := by
  obtain ⟨guarded, ranked⟩ := after_ranked hts hg (hd ▸ ranked_empty)
  obtain ⟨d₁, hv⟩ := hv
  have sound : AuditLog.firstBreak? none ((d.after ts).store.entriesOf loanId) = .ok none :=
    sound_of_verified (d := (d.after ts).prepared clock .none) hv
  refine ⟨fun y hy => ?_, fun clock z r e d' hz ha => ?_⟩
  · obtain ⟨fs, rows, accepted⟩ := (turn_files hy guarded).logOf loanId
    exact ⟨fs, .of_logOf ranked (turn_grows hy guarded ranked).1 sound rows accepted⟩
  · obtain ⟨row, accepted, ofLoan, ranked', hentries⟩ := AuditLog.appended_files hz ranked ha
    have rowOf : row.loanId = loanId := accepted.loanId_row.trans ofLoan
    refine ⟨row, .of_logOf ranked ranked' sound ?_ (List.forall_mem_singleton.mpr ⟨accepted, ofLoan⟩)⟩
    rw [Tables.logOf, hentries, List.filter_append, List.filter_cons_of_pos (by simpa using rowOf), List.filter_nil]
    rfl

/-! ## A remark and a numbered note -/

def noted : AuditRecord := { remark with key := none }

theorem noted_isSound : noted.IsSound where
  isJson := by simp [AuditRecord.IsJson, noted, remark, Value.IsJson, Value.IsRecord]
  isWritable := remark_isWritable
  isTimely := ⟨rfl, _, rfl⟩

/-- Where nothing disturbs it, a remark is accepted and committed. -/
theorem noted_accepted (h : IsOpen d 1) (hd : d.IsCalm) (ht : d.clock.IsTimely) :
    ∃ e d', scope (AuditLog.append "L1" noted) d = .ok (some e) d' := by
  obtain ⟨log, hs⟩ := start_run d
  have ready : Desk.IsReady { d with session := .of d.store, log } := ⟨⟨hd.faults, hd.rival, hd.checks⟩, rfl⟩
  obtain ⟨e, d₁, ha, onward, -⟩ := AuditLog.append_calm ready ht h.chained (h.room "L1")
    noted_isSound fun _ hk => nomatch hk
  rw [← Work.desk_of_ok hs] at ha
  obtain ⟨d', hr, -⟩ := scope_of_ok ha (onward.isReady ready)
  exact ⟨e, d', hr⟩

/-- The remark has a text as its key, and is verified. -/
theorem accepted_verified_at_noon :
    noon.store = .empty ∧ noon.isGuarded = true ∧ (∀ x ∈ openedAtNoon, x.disturbance.IsHonest) ∧
      (∃ d', scope (AuditLog.verify "L1") ((noon.after openedAtNoon).prepared noon.clock .none) = .ok () d') ∧
      ∃ e d', scope (AuditLog.append "L1" noted) ((noon.after openedAtNoon).prepared noon.clock .none) =
        .ok (some e) d' ∧ ∃ d'', scope (AuditLog.verify "L1") (d'.prepared noon.clock .none) = .ok () d'' := by
  have isOpen := openedAtNoon_shows.1
  have verified :=
    (isOpen.chained.sequenced "L1").verified _ (Desk.prepared_isCalm _ noon.clock) (Desk.prepared_store _ _ _)
  obtain ⟨e, d', ha⟩ := noted_accepted (isOpen.prepared noon.clock .none) (Desk.prepared_isCalm _ _) noon_isTimely
  obtain ⟨row, extended⟩ :=
    (accepted_verified noon openedAtNoon rfl rfl openedAtNoon_honest "L1" noon.clock verified).2
      noon.clock .none noted e d' Disturbance.none_isHonest ha
  have ordered : noted.KeepsOrder := .of_hasOwnTexts (Value.IsJson.hasOwnTexts _ noted_isSound.isJson)
  refine ⟨rfl, rfl, openedAtNoon_honest, verified, e, d', ha, ?_⟩
  exact extended.verified (List.forall_mem_singleton.mpr ordered) _ (Desk.prepared_isCalm _ _)
    (Desk.prepared_store _ _ _)

/-- A note with a map in it that has two numbers as keys, whose texts stand the other way round. -/
def numbered : AuditRecord :=
  ⟨Clock.defaultStart, "", .ignoredEvent, "", [(.text "notes", .map [(.int 9, .int 0), (.int 10, .int 1)])], none⟩

/-- The log of a loan is verified, the note is accepted as its first entry, and the log is broken. -/
theorem numbered_breaks :
    noon.store = .empty ∧ noon.isGuarded = true ∧
      (∃ d', scope (AuditLog.verify "L1") (noon.prepared noon.clock .none) = .ok () d') ∧
      ∃ e d', scope (AuditLog.append "L1" numbered) (noon.prepared noon.clock .none) = .ok (some e) d' ∧
        ∃ expected actual d'', scope (AuditLog.verify "L1") (d'.prepared noon.clock .none) =
          .error (.failure (.auditChainBroken "L1" 1 expected actual)) d'' := by
  have verified : ∃ d', scope (AuditLog.verify "L1") (noon.prepared noon.clock .none) = .ok () d' :=
    (chained_empty.sequenced "L1").verified _ (Desk.prepared_isCalm _ _) (Desk.prepared_store _ _ _)
  have accepted :
      ((scope (AuditLog.append "L1" numbered)).answer (noon.prepared noon.clock .none)).toOption.join.isSome =
      true := by decide +kernel
  have broken : (AuditLog.firstBreak? none (((scope (AuditLog.append "L1" numbered)).desk
      (noon.prepared noon.clock .none)).store.entriesOf "L1")).toOption.join.map (·.seq) = some 1 := by decide +kernel
  obtain ⟨e, he⟩ := Option.isSome_iff_exists.mp accepted
  obtain ⟨d', ha⟩ := Work.ok_of_answer (ok_of_toOption (Option.join_eq_some_iff.mp he))
  rw [Work.desk_of_ok ha] at broken
  obtain ⟨b, hb, hseq⟩ := Option.map_eq_some_iff.mp broken
  obtain ⟨d'', hv⟩ := scope_verify_break (Desk.prepared_isCalm d' noon.clock)
    (ok_of_toOption (Option.join_eq_some_iff.mp hb))
  rw [hseq] at hv
  exact ⟨rfl, rfl, verified, e, d', ha, b.expected, b.actual, d'', hv⟩

end LoanLedger.Ledger
