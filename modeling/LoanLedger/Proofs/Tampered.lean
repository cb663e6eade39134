import LoanLedger.Proofs.Missing
import LoanLedger.Proofs.Proper

/-!
# A single change is located

* `Entry.SameContent e e'` : what the content hash covers is the same, with the attributes in any order;
* `Entry.Forged e row` : `row` is put in the place of `e` below the session, with another content under the same content
  hash, or with another value in one of the columns of hashes;
* `Entry.Forged.unsealed` : then its hashes are not those of a sealed entry, or there is a collision;
* `BreaksAt t loanId n` : verifying the log fails at the number `n`, and each entry before is sound;
* `tampering_located` : so it does where an entry was forged, and behind one that was deleted.
-/

namespace LoanLedger.Ledger

open Engine

variable {d d' : Desk} {t t' : Tables} {loanId : String} {es xs ys : List Entry} {e row x : Entry}
  {prevHash : Option String} {n : Int}

/-! ## Forged entries -/

namespace Entry

/-- What the content hash covers is the same, with the attributes in any order. -/
structure SameContent (e e' : Entry) : Prop where
  timestamp : e.timestamp = e'.timestamp
  recordedAt : e.recordedAt = e'.recordedAt
  actor : e.actor = e'.actor
  event : e.event = e'.event
  details : e.details = e'.details
  attributes : e.attributes.Same e'.attributes
  key : e.key = e'.key

/-- The row stands in the place of an entry and differs from it: it was stored with another content, of a known tag and
with an object as attributes, under the same content hash, or it has another value in a column of hashes. -/
inductive Forged (e : Entry) : Entry → Prop where
  | content {new row : Entry} {tag : Audit.Tag} : new.stored? = some row → new.event = tag.word → new.IsProper →
    row.loanId = e.loanId → row.seq = e.seq → row.payloadHash = e.payloadHash →
    ¬ e.SameContent row → Forged e row
  | prevHash {prevHash : Option String} : prevHash ≠ e.prevHash → Forged e { e with prevHash }
  | payloadHash {payloadHash : String} : payloadHash ≠ e.payloadHash → Forged e { e with payloadHash }
  | hash {hash : String} : hash ≠ e.hash → Forged e { e with hash }

theorem Forged.ofLoan (h : e.Forged row) : row.loanId = e.loanId := by
  cases h with
  | content _ _ _ hl _ _ _ => exact hl
  | prevHash | payloadHash | hash => rfl

theorem Forged.seq (h : e.Forged row) : row.seq = e.seq := by
  cases h with
  | content _ _ _ _ hs _ _ => exact hs
  | prevHash | payloadHash | hash => rfl

theorem Forged.contentText (h : e.Forged row) (he : ∃ s, e.contentText? = .ok s) :
    ∃ s, row.contentText? = .ok s := by
  cases h with
  | content hrow htag hnew _ _ _ _ =>
    obtain ⟨as, ha, -⟩ := hnew
    exact content_of_stored htag ha hrow
  | prevHash | payloadHash | hash => exact he

theorem Forged.unsealed (h : e.Forged row) (hs : e.IsSealed prevHash) (he : e.IsProper) :
    ¬ row.IsSealed prevHash ∨ Collide [e] [row] := by
  cases h with
  | @content new _ tag hrow htag hnew _ _ hpay hne =>
    by_cases hs' : row.IsSealed prevHash
    · obtain ⟨s, htext, hdigest, -, hashed⟩ := hs.texts
      obtain ⟨s', htext', hdigest', -, hashed'⟩ := hs'.texts
      -- the content hash is that of both contents
      have same : digestOf s = digestOf s' := hdigest.symm.trans (hpay.symm.trans hdigest')
      rcases eq_or_collide e row (by rw [hashed]; simp) (by rw [hashed']; simp) same with hc | hc
      · subst hc
        obtain ⟨event, timestamp, recordedAt, actor, details, attributes, key⟩ :=
          content_inj he (hnew.stored hrow) htext htext'
        exact absurd ⟨timestamp, recordedAt, actor, event, details, attributes, key⟩ hne
      · exact .inr hc
    · exact .inl hs'
  | prevHash hne => exact .inl fun hs' => hne (hs'.prevHash.trans hs.prevHash.symm)
  | payloadHash hne => exact .inl fun hs' => hne (Except.ok.inj (hs'.payloadHash.symm.trans hs.payloadHash))
  | hash hne => exact .inl fun hs' => hne (hs'.hash.trans hs.hash.symm)

end Entry

theorem break_of_unsealed (hc : ∃ s, e.contentText? = .ok s) (h : ¬ e.IsSealed prevHash) :
    ∃ b, AuditLog.checkEntry prevHash e = .ok (some b) ∧ b.seq = e.seq := by
  obtain ⟨o, ho⟩ := checkEntry_total hc prevHash
  cases o with
  | none => exact absurd (Entry.sealed_of_checkEntry ho) h
  | some b => exact ⟨b, ho, seq_of_checkEntry ho⟩

/-! ## Where a log breaks -/

/-- Verifying the log of a loan fails at a number, and each entry before is sound. -/
structure BreaksAt (t : Tables) (loanId : String) (n : Int) : Prop where
  fails : ∀ d : Desk, d.IsCalm → d.store = t → ∃ (b : AuditLog.Break) (d' : Desk), b.seq = n ∧
    scope (AuditLog.verify loanId) d = .error (.failure (.auditChainBroken loanId b.seq b.expected b.actual)) d'
  before : AuditLog.firstBreak? none ((t.entriesOf loanId).filter (·.seq < n)) = .ok none

/-- A log breaks at the first entry that is not sealed behind the ones in front of it. -/
theorem breaksAt_of_unsealed (hlog : t.logOf loanId = xs ++ row :: ys)
    (hsort : (xs ++ row :: ys).Pairwise fun a b => a.seq < b.seq) (hx : AuditLog.firstBreak? none xs = .ok none)
    (hc : ∃ s, row.contentText? = .ok s) (h : ¬ row.IsSealed (xs.getLast?.map (·.hash))) :
    BreaksAt t loanId row.seq := by
  have log : t.entriesOf loanId = xs ++ row :: ys := by
    rw [entriesOf_of_sorted (hlog ▸ hsort.imp Int.le_of_lt), hlog]
  obtain ⟨b, hb, hs⟩ := break_of_unsealed hc h
  have first : AuditLog.firstBreak? none (xs ++ row :: ys) = .ok (some b) := by
    rw [firstBreak?_behind hx, AuditLog.firstBreak?, hb]
    rfl
  obtain ⟨-, hrest, hlt⟩ := List.pairwise_append.mp hsort
  have front : (xs ++ row :: ys).filter (·.seq < row.seq) = xs := by
    have behind : (row :: ys).filter (·.seq < row.seq) = [] := by
      refine List.filter_eq_nil_iff.mpr fun y hy => ?_
      rcases List.mem_cons.mp hy with rfl | hy
      · simp
      · have := (List.pairwise_cons.mp hrest).1 y hy
        simp only [decide_eq_true_eq]
        omega
    rw [List.filter_append, behind, List.append_nil]
    exact List.filter_eq_self.mpr fun y hy => by simpa using hlt y hy row List.mem_cons_self
  refine ⟨fun d hd hstore => ?_, by rw [log, front]; exact hx⟩
  obtain ⟨d', hr⟩ := scope_verify_break hd (by rw [hstore, log]; exact first)
  exact ⟨b, d', hs, hr⟩

/-! ## Chains -/

theorem Chain.of_isPrefix (h : Chain es) (hx : xs <+: es) : Chain xs := by
  induction h with
  | nil =>
    rw [List.prefix_nil.mp hx]
    exact .nil
  | snoc h hseq hplain hs ih =>
    rcases List.prefix_concat_iff.mp hx with rfl | hx
    · exact .snoc h hseq hplain hs
    · exact ih hx

/-- An entry of a chain has the next number, and is sealed behind the ones in front of it. -/
theorem Chain.split (h : Chain (xs ++ e :: ys)) :
    Chain xs ∧ e.seq = xs.length + 1 ∧ e.IsSealed (xs.getLast?.map (·.hash)) := by
  have front : Chain (xs ++ [e]) := h.of_isPrefix ⟨ys, by simp⟩
  generalize hl : xs ++ [e] = l at front
  cases front with
  | nil => simp at hl
  | snoc hf hseq _ hs =>
    obtain ⟨rfl, he⟩ := List.append_inj' hl rfl
    cases he
    exact ⟨hf, hseq, hs⟩

theorem Chain.rising (h : Chain es) : Rising es := by
  induction h with
  | nil => exact .nil
  | @snoc es e h hseq _ hs ih =>
    obtain ⟨s, htext, hdigest, -, -⟩ := hs.texts
    refine .snoc ih (fun x hx => ?_) ⟨hs.prevHash, hdigest ▸ isDigest_digestOf s, hs.hash, s, htext⟩
    have := h.seq_le x hx
    omega

/-! ## Changed rows -/

/-- A row that is put in the place of an entry stands in its place in the log. -/
theorem replaceEntry?_logOf (h : t.replaceEntry? loanId e.seq row = some t') (hrow : row.loanId = loanId)
    (hlog : t.logOf loanId = xs ++ e :: ys) (hsort : (xs ++ e :: ys).Pairwise fun a b => a.seq < b.seq) :
    t'.logOf loanId = xs ++ row :: ys := by
  let swap (x : Entry) : Entry := if x.loanId = loanId && x.seq = e.seq then row else x
  have swapped : t'.entries = t.entries.map swap := by
    unfold Tables.replaceEntry? at h
    split at h
    · cases h
    · cases h
      rfl
  have ofLoan : ((fun x : Entry => decide (x.loanId = loanId)) ∘ swap) = fun x => decide (x.loanId = loanId) := by
    funext x
    by_cases hx : x.loanId = loanId ∧ x.seq = e.seq
    · simp [swap, hx, hrow]
    · simp [swap, hx]
  have log : t'.logOf loanId = (t.logOf loanId).map swap := by
    rw [Tables.logOf, swapped, List.filter_map, ofLoan, Tables.logOf]
  have kept {zs : List Entry} (hz : ∀ z ∈ zs, z.seq ≠ e.seq) : zs.map swap = zs :=
    (List.map_congr_left fun z h => by simp [swap, hz z h]).trans (List.map_id' zs)
  obtain ⟨-, hrest, hlt⟩ := List.pairwise_append.mp hsort
  have front : xs.map swap = xs := kept fun z hz => Int.ne_of_lt (hlt z hz e List.mem_cons_self)
  have behind : ys.map swap = ys := kept fun z hz => (Int.ne_of_lt ((List.pairwise_cons.mp hrest).1 z hz)).symm
  have here : swap e = row := by
    have he : e ∈ t.logOf loanId := by simp [hlog]
    simp [swap, show e.loanId = loanId by simpa using (List.mem_filter.mp he).2]
  rw [log, hlog, List.map_append, List.map_cons, front, here, behind]

/-- Where an entry of a chain is forged, the log breaks there, or there is a collision. -/
theorem Chain.forged (h : Chain (t.logOf loanId)) (he : e ∈ t.logOf loanId) (hp : e.IsProper) (hf : e.Forged row)
    (hr : t.replaceEntry? loanId e.seq row = some t') : BreaksAt t' loanId e.seq ∨ Collide [e] [row] := by
  have ofLoan : e.loanId = loanId := by simpa using (List.mem_filter.mp he).2
  obtain ⟨xs, ys, hlog⟩ := List.append_of_mem he
  rw [hlog] at h
  obtain ⟨hx, -, hs⟩ := h.split
  have ascending := h.rising.ascending
  have log := replaceEntry?_logOf hr (hf.ofLoan.trans ofLoan) hlog ascending
  have sorted : (xs ++ row :: ys).Pairwise fun a b => a.seq < b.seq := by
    simpa [List.pairwise_append, hf.seq] using ascending
  obtain ⟨s, htext, -⟩ := hs.texts
  refine (hf.unsealed hs hp).imp_left fun unsealed => ?_
  rw [← hf.seq]
  exact breaksAt_of_unsealed log sorted hx.sound (hf.contentText ⟨s, htext⟩) unsealed

/-- Where an entry of a chain is missing, the log breaks at the next one, or there is a clash. -/
theorem Chain.missing (h : Chain (t.logOf loanId)) (he : e ∈ t.logOf loanId) (hlt : e.seq < (t.logOf loanId).length) :
    BreaksAt (t.removeEntry loanId e.seq) loanId (e.seq + 1) ∨ Clash (t.logOf loanId) := by
  obtain ⟨xs, ys, hlog⟩ := List.append_of_mem he
  rw [hlog] at h hlt ⊢
  obtain ⟨hx, hseq, hs⟩ := h.split
  cases ys with
  | nil =>
    rw [hseq] at hlt
    simp at hlt
  | cons y ys =>
    have apart : xs ++ e :: y :: ys = (xs ++ [e]) ++ y :: ys := by simp
    obtain ⟨-, hnext, hs'⟩ := (apart ▸ h).split
    have rising := h.rising
    have next : y.seq = e.seq + 1 := by
      rw [hnext, hseq, List.length_append]
      rfl
    have left : (t.removeEntry loanId e.seq).logOf loanId = xs ++ y :: ys := by
      have ascending := rising.ascending
      obtain ⟨-, hrest, hlt⟩ := List.pairwise_append.mp ascending
      have front : xs.filter (·.seq ≠ e.seq) = xs := List.filter_eq_self.mpr fun z hz => by
        simpa using Int.ne_of_lt (hlt z hz e List.mem_cons_self)
      have behind : (y :: ys).filter (·.seq ≠ e.seq) = y :: ys := List.filter_eq_self.mpr fun z hz => by
        simpa using (Int.ne_of_lt ((List.pairwise_cons.mp hrest).1 z hz)).symm
      rw [removeEntry_logOf, hlog, List.filter_append, List.filter_cons_of_neg (by simp), front, behind]
    by_cases hu : y.IsSealed (xs.getLast?.map (·.hash))
    · -- then an entry before the missing one has its hash
      have link : xs.getLast?.map (·.hash) = some e.hash := by
        rw [← hu.prevHash, hs'.prevHash, List.getLast?_concat, Option.map_some]
      obtain ⟨z, hz, hh⟩ := Option.map_eq_some_iff.mp link
      have hz : z ∈ xs := List.mem_of_getLast? hz
      have hlt : z.seq < e.seq := rising.lt_of_append hz List.mem_cons_self
      exact .inr (rising.clash (by simp [hz]) (by simp) (Int.ne_of_lt hlt) hh)
    · refine .inl ?_
      obtain ⟨s, htext, -⟩ := hs'.texts
      rw [← next]
      exact breaksAt_of_unsealed left (rising.ascending.sublist (by simp)) hx.sound ⟨s, htext⟩ hu

/-! ## Runs -/

theorem shutOnce_proper : ∀ x ∈ shutOnce, x.Logs ∧ x.IsProper := by
  intro x hx
  simp only [shutOnce, List.mem_cons, List.not_mem_nil, or_false] at hx
  rcases hx with rfl | rfl <;> exact ⟨.call Disturbance.none_isHonest, .call⟩

/-- The entry can be replaced by one with another text, or with another hash. -/
def Entry.isReplaceable (t : Tables) (e : Entry) : Bool :=
  e.details ≠ "forged" && (Audit.Tag.ofWord? e.event).isSome && ({ e with details := "forged" }.stored?).isSome &&
    (t.replaceEntry? "L1" e.seq { e with details := "forged" }).isSome &&
    (t.replaceEntry? "L1" e.seq { e with hash := "" }).isSome

theorem Entry.forged_of_isReplaceable (h : e.isReplaceable t = true) (plain : e.IsPlain) (proper : e.IsProper) :
    e.Forged { e with details := "forged" } ∧
      (∃ t', t.replaceEntry? "L1" e.seq { e with details := "forged" } = some t') ∧
      ∃ t', t.replaceEntry? "L1" e.seq { e with hash := "" } = some t' := by
  simp only [isReplaceable, Bool.and_eq_true, decide_eq_true_eq] at h
  obtain ⟨⟨⟨⟨other, known⟩, stored⟩, texted⟩, hashed⟩ := h
  obtain ⟨tag, htag⟩ := Option.isSome_iff_exists.mp known
  obtain ⟨row, hrow⟩ := Option.isSome_iff_exists.mp stored
  have plain' : { e with details := "forged" }.IsPlain := ⟨plain.timestamp, plain.recordedAt, plain.attributes⟩
  obtain rfl := stored?_eq plain' hrow
  refine ⟨?_, Option.isSome_iff_exists.mp texted, Option.isSome_iff_exists.mp hashed⟩
  exact .content hrow (Audit.Tag.word_of_ofWord? htag).symm proper rfl rfl rfl fun same => other same.details

theorem Entry.IsSealed.forged (h : e.IsSealed prevHash) : e.Forged { e with hash := "" } := by
  have digest : IsDigest e.hash := h.hash ▸ isDigest_digestOf _
  exact .hash digest.ne_empty.symm

theorem shutOnce_replaceable : ((noon.after shutOnce).store.logOf "L1").map (·.seq) = [1, 2, 3] ∧
    ((noon.after shutOnce).store.logOf "L1").all (·.isReplaceable (noon.after shutOnce).store) = true := by
  decide +kernel

theorem shutOnce_second : ∃ e ∈ (noon.after shutOnce).store.logOf "L1",
    e.seq = 2 ∧ e.isReplaceable (noon.after shutOnce).store = true := by
  obtain ⟨seqs, replaceable⟩ := shutOnce_replaceable
  have second : (2 : Int) ∈ ((noon.after shutOnce).store.logOf "L1").map (·.seq) := by
    rw [seqs]
    decide
  obtain ⟨e, he, hseq⟩ := List.mem_map.mp second
  exact ⟨e, he, hseq, List.all_eq_true.mp replaceable e he⟩

end LoanLedger.Ledger
