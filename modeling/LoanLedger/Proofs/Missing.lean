import LoanLedger.Proofs.AppendOnly
import LoanLedger.Proofs.Evidence

/-!
# Missing entries

* `d.without loanId seqs` : the desk when the entries of a loan with some numbers were deleted below the session;
* `Clash es` : two of the texts that the hashes of the entries are taken of have the same digest;
* `Linked.isPrefix` : what is sound of a log that rises is a prefix of it, or there is a clash;
* `missing_entries_detected` : where an entry is missing before one that is there, verifying fails at the latest there,
  unless there is a clash; where the newest entries are missing, it passes as before;
* `newest_entry_missed` : so that an entry can be missing and nobody sees it.
-/

namespace LoanLedger.Ledger

open Engine

variable {d d' : Desk} {t : Tables} {loanId : String} {es fs xs ys : List Entry} {e x y z : Entry}
  {prevHash : Option String} {b : AuditLog.Break}

/-! ## Parts of a rising log -/

theorem Rising.of_isPrefix (h : Rising es) (hx : xs <+: es) : Rising xs := by
  induction h with
  | nil =>
    rw [List.prefix_nil.mp hx]
    exact .nil
  | snoc h hlt hm ih =>
    rcases List.prefix_concat_iff.mp hx with rfl | hx
    · exact .snoc h hlt hm
    · exact ih hx

/-- An entry of a rising log is made behind the ones in front of it. -/
theorem Rising.made (h : Rising (xs ++ e :: ys)) : e.IsMade (xs.getLast?.map (·.hash)) := by
  have front : Rising (xs ++ [e]) := h.of_isPrefix ⟨ys, by simp⟩
  generalize hl : xs ++ [e] = l at front
  cases front with
  | nil => simp at hl
  | snoc _ _ hm =>
    obtain ⟨rfl, he⟩ := List.append_inj' hl rfl
    cases he
    exact hm

theorem Rising.isMade (h : Rising es) (he : e ∈ es) : ∃ prevHash, e.IsMade prevHash := by
  obtain ⟨xs, ys, rfl⟩ := List.append_of_mem he
  exact ⟨_, h.made⟩

/-- The hash before an entry of a rising log is none, or a digest. -/
theorem Rising.previous (h : Rising es) (he : e ∈ es) : Audit.IsPrevious e.prevHash := by
  obtain ⟨xs, ys, rfl⟩ := List.append_of_mem he
  rw [h.made.prevHash]
  intro p hp
  obtain ⟨x, hx, rfl⟩ := Option.map_eq_some_iff.mp hp
  obtain ⟨_, hm⟩ := h.isMade (e := x) (by simp [List.mem_of_getLast? hx])
  rw [hm.hash]
  exact isDigest_digestOf _

/-- The text that the hash of an entry is taken of. -/
def Entry.chained (e : Entry) : String :=
  Audit.chainText e.loanId e.seq e.event e.payloadHash e.prevHash

/-- Two of the texts that the hashes of the entries are taken of have the same digest. -/
def Clash (es : List Entry) : Prop :=
  ∃ y ∈ es, ∃ z ∈ es, y.chained ≠ z.chained ∧ digestOf y.chained = digestOf z.chained

theorem Entry.IsMade.tag (h : e.IsMade prevHash) : ∃ t : Audit.Tag, e.event = t.word := by
  obtain ⟨s, hs⟩ := h.content
  unfold contentText? content? at hs
  cases ht : e.tag? with
  | error x => rw [ht] at hs; cases hs
  | ok t => exact ⟨t, tag?_ok ht⟩

/-- Entries with different numbers have different hashes, or there is a clash. -/
theorem Rising.clash (h : Rising es) (hy : y ∈ es) (hz : z ∈ es) (hne : y.seq ≠ z.seq) (hh : y.hash = z.hash) :
    Clash es := by
  obtain ⟨_, my⟩ := h.isMade hy
  obtain ⟨_, mz⟩ := h.isMade hz
  obtain ⟨t, ht⟩ := my.tag
  obtain ⟨t', ht'⟩ := mz.tag
  refine ⟨y, hy, z, hz, fun hc => hne ?_, ?_⟩
  · unfold Entry.chained at hc
    rw [ht, ht'] at hc
    exact (Audit.chainText_inj my.payloadHash mz.payloadHash (h.previous hy) (h.previous hz) hc).2.1
  · rw [my.hash, mz.hash] at hh
    exact hh

/-- Of two parts of a log that rises, the entries of the first have the lesser numbers. -/
theorem Rising.lt_of_append (h : Rising (xs ++ ys)) (hx : x ∈ xs) (hy : y ∈ ys) : x.seq < y.seq :=
  (List.pairwise_append.mp h.ascending).2.2 x hx y hy

/-- What is sound of a rising log is a prefix of it, or there is a clash. -/
theorem Linked.isPrefix (hf : Linked fs) (h : Rising es) (hs : List.Sublist fs es) :
    fs <+: es ∨ Clash es := by
  induction hf with
  | nil => exact .inl List.nil_prefix
  | @snoc gs e hg he ih =>
    rcases ih ((List.sublist_append_left gs [e]).trans hs) with ⟨rest, rfl⟩ | hc
    · -- what is left out stands between the sound entries and the next one
      have behind : e ∈ rest := by
        have := (List.append_sublist_append_left gs).mp hs
        exact List.singleton_sublist.mp this
      obtain ⟨cs, ds, rfl⟩ := List.append_of_mem behind
      rw [← List.append_assoc] at h
      have link : gs.getLast?.map (·.hash) = (gs ++ cs).getLast?.map (·.hash) :=
        he.prevHash.symm.trans h.made.prevHash
      cases hc : cs.getLast? with
      | none =>
        rw [List.getLast?_eq_none_iff.mp hc]
        exact .inl ⟨ds, by simp⟩
      | some w =>
        have hw : w ∈ cs := List.mem_of_getLast? hc
        rw [List.getLast?_append, hc] at link
        obtain ⟨z, hz, hh⟩ := Option.map_eq_some_iff.mp link
        have hz : z ∈ gs := List.mem_of_getLast? hz
        have hlt : z.seq < w.seq := (h.of_isPrefix (List.prefix_append _ _)).lt_of_append hz hw
        rw [← List.append_assoc]
        exact .inr (h.clash (by simp [hz]) (by simp [hw]) (by omega) hh)
    · exact .inr hc

/-! ## Breaks -/

/-- What is wrong with an entry is told where it has a content. -/
theorem checkEntry_total (h : ∃ s, e.contentText? = .ok s) (prevHash : Option String) :
    ∃ o, AuditLog.checkEntry prevHash e = .ok o := by
  obtain ⟨s, hs⟩ := h
  unfold AuditLog.checkEntry
  split
  · exact ⟨_, rfl⟩
  · rw [Entry.payloadHash?, hs]
    exact ⟨_, rfl⟩

/-- Where all entries have a content, there is a first break or none. -/
theorem firstBreak?_total (h : ∀ e ∈ es, ∃ s, e.contentText? = .ok s) (prevHash : Option String) :
    ∃ o, AuditLog.firstBreak? prevHash es = .ok o := by
  induction es generalizing prevHash with
  | nil => exact ⟨none, rfl⟩
  | cons e es ih =>
    obtain ⟨he, hes⟩ := List.forall_mem_cons.mp h
    obtain ⟨o, ho⟩ := checkEntry_total he prevHash
    rw [AuditLog.firstBreak?, ho]
    cases o with
    | some b => exact ⟨some b, rfl⟩
    | none => exact ih hes (some e.hash)

theorem seq_of_checkEntry (h : AuditLog.checkEntry prevHash e = .ok (some b)) : b.seq = e.seq := by
  unfold AuditLog.checkEntry at h
  split at h
  · cases h
    rfl
  · obtain ⟨payloadHash, -, h⟩ := bind_ok h
    dsimp only at h
    split at h
    · cases h
      rfl
    · cases h

/-- The first break is at one of the entries, and stays the first when more entries follow. -/
theorem firstBreak?_some (h : AuditLog.firstBreak? prevHash es = .ok (some b)) (fs : List Entry) :
    (∃ e ∈ es, b.seq = e.seq) ∧ AuditLog.firstBreak? prevHash (es ++ fs) = .ok (some b) := by
  induction es generalizing prevHash with
  | nil => cases h
  | cons e es ih =>
    rw [List.cons_append, AuditLog.firstBreak?]
    rw [AuditLog.firstBreak?] at h
    obtain ⟨o, hc, h⟩ := bind_ok h
    rw [hc]
    cases o with
    | some b' =>
      cases h
      exact ⟨⟨e, List.mem_cons_self, seq_of_checkEntry hc⟩, rfl⟩
    | none =>
      obtain ⟨⟨x, hx, hs⟩, hb⟩ := ih h
      exact ⟨⟨x, List.mem_cons_of_mem _ hx, hs⟩, hb⟩

theorem firstBreak?_prefix (h : AuditLog.firstBreak? prevHash (es ++ fs) = .ok none) :
    AuditLog.firstBreak? prevHash es = .ok none := by
  induction es generalizing prevHash with
  | nil => rfl
  | cons e es ih =>
    have hc := checkEntry_of_firstBreak? h
    rw [List.cons_append, firstBreak?_cons _ _ _ hc] at h
    rw [firstBreak?_cons _ _ _ hc]
    exact ih h

/-- Where an entry is missing before one that is there, the log is broken at the latest there, or there is a clash. -/
theorem Rising.detects (h : Rising es) {p : Entry → Bool} (hx : x ∈ es) (px : p x) (hy : y ∈ es) (py : ¬ p y)
    (hlt : y.seq < x.seq) :
    (∃ b, AuditLog.firstBreak? none (es.filter p) = .ok (some b) ∧ b.seq ≤ x.seq) ∨ Clash es := by
  obtain ⟨xs, ys, hsplit⟩ := List.append_of_mem (List.mem_filter.mpr ⟨hx, px⟩)
  have part : List.Sublist (xs ++ [x]) (es.filter p) := by
    rw [hsplit]
    exact List.Sublist.append_left (by simp) xs
  have sub : List.Sublist (xs ++ [x]) es := part.trans List.filter_sublist
  obtain ⟨o, ho⟩ : ∃ o, AuditLog.firstBreak? none (xs ++ [x]) = .ok o :=
    firstBreak?_total (fun e he => (h.isMade (sub.subset he)).elim fun _ hm => hm.content) none
  rw [hsplit, show xs ++ x :: ys = xs ++ [x] ++ ys by simp]
  cases o with
  | some b =>
    obtain ⟨⟨e, he, hs⟩, hb⟩ := firstBreak?_some ho ys
    refine .inl ⟨b, hb, ?_⟩
    have ascending := h.ascending.sublist sub
    rw [hs]
    rcases List.mem_append.mp he with he | he
    · exact Int.le_of_lt ((List.pairwise_append.mp ascending).2.2 e he x (by simp))
    · exact Int.le_of_eq (congrArg (·.seq) (List.mem_singleton.mp he))
  | none =>
    -- then all up to there is a prefix, in which nothing is missing
    refine .inr ?_
    rcases (linked_of_firstBreak? ho).isPrefix h sub with ⟨rest, rfl⟩ | hc
    · exfalso
      rcases List.mem_append.mp hy with hy | hy
      · exact py (List.mem_filter.mp (part.subset hy)).2
      · have : x.seq < y.seq := h.lt_of_append (List.mem_append_right _ (List.mem_singleton_self x)) hy
        omega
    · exact hc

/-- Where only the newest entries are missing, what is left is a prefix. -/
theorem Rising.filter_isPrefix (h : Rising es) {p : Entry → Bool}
    (hlt : ∀ x ∈ es, ∀ y ∈ es, p x → ¬ p y → x.seq < y.seq) : es.filter p <+: es := by
  induction h with
  | nil => exact List.prefix_rfl
  | @snoc es e h hbehind _ ih =>
    by_cases he : p e
    · -- no entry is missing before one that is left
      have all : ∀ x ∈ es ++ [e], p x := by
        intro x hx
        refine Decidable.byContradiction fun px => ?_
        rcases List.mem_append.mp hx with hx | hx
        · have := hlt e (by simp) x (by simp [hx]) he px
          have := hbehind x hx
          omega
        · exact px (List.mem_singleton.mp hx ▸ he)
      have same : (es ++ [e]).filter p = es ++ [e] := List.filter_eq_self.mpr all
      exact ⟨[], by rw [same, List.append_nil]⟩
    · rw [List.filter_append, List.filter_cons_of_neg he, List.filter_nil, List.append_nil]
      exact (ih fun x hx y hy => hlt x (by simp [hx]) y (by simp [hy])).trans (List.prefix_append _ _)

/-! ## Deleted entries -/

def Desk.without (d : Desk) (loanId : String) (seqs : List Int) : Desk :=
  seqs.foldl (fun d seq => (Tampering.deleteEntry loanId seq).desk d) d

theorem removeEntry_logOf (t : Tables) (loanId : String) (seq : Int) :
    (t.removeEntry loanId seq).logOf loanId = (t.logOf loanId).filter (·.seq ≠ seq) := by
  rw [Tables.logOf, Tables.logOf, Tables.removeEntry, List.filter_filter, List.filter_filter]
  refine List.filter_congr fun x _ => ?_
  by_cases hx : x.loanId = loanId <;> simp [hx]

theorem without_logOf (loanId : String) (seqs : List Int) :
    (d.without loanId seqs).store.logOf loanId = (d.store.logOf loanId).filter (·.seq ∉ seqs) := by
  induction seqs generalizing d with
  | nil => exact (List.filter_eq_self.mpr (by simp)).symm
  | cons seq seqs ih =>
    have deleted : ((Tampering.deleteEntry loanId seq).desk d).store = d.store.removeEntry loanId seq := rfl
    rw [Desk.without, List.foldl_cons, ← Desk.without, ih, deleted, removeEntry_logOf, List.filter_filter]
    refine List.filter_congr fun x _ => ?_
    simp [Bool.and_comm]

/-- What is left of a log that rises stands in the same order. -/
theorem without_entriesOf (h : Rising (d.store.logOf loanId)) (seqs : List Int) :
    (d.without loanId seqs).store.entriesOf loanId = (d.store.entriesOf loanId).filter (·.seq ∉ seqs) := by
  have sorted : ((d.store.logOf loanId).filter (·.seq ∉ seqs)).Pairwise fun a b => a.seq ≤ b.seq :=
    (h.ascending.imp Int.le_of_lt).filter _
  rw [← without_logOf] at sorted
  rw [entriesOf_of_sorted sorted, entriesOf_of_rising h, without_logOf]

/-! ## Verifying -/

/-- A log with a break fails to verify, and the failure says where. -/
theorem verify_break (hd : d.IsReady) (hk : d.session.known.entries = [])
    (h : AuditLog.firstBreak? none (d.session.tables.entriesOf loanId) = .ok (some b)) :
    ∃ d', AuditLog.verify loanId d = .error (.failure (.auditChainBroken loanId b.seq b.expected b.actual)) d' := by
  unfold AuditLog.verify
  rw [Work.bind_of_ok (guarded_of_ok (ask_calm hd hk (·.entriesOf loanId))), h]
  obtain ⟨log, hr⟩ := emit_run .critical "services.ledger" "audit_chain_broken"
    [("loan_id", .text loanId), ("seq", .int b.seq), ("check", .text b.flaw.word)] d
  exact ⟨_, (Work.bind_of_ok (Work.pure_run (some b) d)).trans (Work.bind_of_ok hr)⟩

theorem scope_verify_break (hd : d.IsCalm) (h : AuditLog.firstBreak? none (d.store.entriesOf loanId) = .ok (some b)) :
    ∃ d', scope (AuditLog.verify loanId) d =
      .error (.failure (.auditChainBroken loanId b.seq b.expected b.actual)) d' := by
  obtain ⟨log, hs⟩ := start_run d
  have ready : Desk.IsReady { d with session := .of d.store, log } := ⟨⟨hd.faults, hd.rival, hd.checks⟩, rfl⟩
  obtain ⟨d₁, hv⟩ := verify_break ready rfl h
  rw [← Work.desk_of_ok hs] at hv
  obtain ⟨d', hr, -⟩ := scope_of_error hv
  exact ⟨d', hr⟩

theorem scope_verify_sound (hd : d.IsCalm) (h : AuditLog.firstBreak? none (d.store.entriesOf loanId) = .ok none) :
    ∃ d', scope (AuditLog.verify loanId) d = .ok () d' := by
  have ready (log) : Desk.IsReady { d with session := .of d.store, log } :=
    ⟨⟨hd.faults, hd.rival, hd.checks⟩, rfl⟩
  exact scope_calm fun log => ⟨_, verify_sound (ready log) rfl h, ready log⟩

/-- Missing entries are detected when an entry behind them is left. After any run of calls and blocks, let the entries
of a loan with some numbers be deleted below the session. Where an entry is missing before one that is left, verifying
the log says that it is broken, at the latest there, unless two of the texts that its hashes are taken of have the
same digest. Where all that is missing is newer than all that is left, a log that was verified before is verified
still. -/
theorem missing_entries_detected (d : Desk) (ts : List Turn) (hd : d.store = .empty) (hg : d.isGuarded = true)
    (hts : ∀ x ∈ ts, x.disturbance.IsHonest) (loanId : String) (seqs : List Int) (clock : Clock) :
    (∀ x ∈ (d.after ts).store.entriesOf loanId, ∀ y ∈ (d.after ts).store.entriesOf loanId,
      x.seq ∉ seqs → y.seq ∈ seqs → y.seq < x.seq →
        (∃ (b : AuditLog.Break) (d' : Desk), b.seq ≤ x.seq ∧
          scope (AuditLog.verify loanId) (((d.after ts).without loanId seqs).prepared clock .none) =
            .error (.failure (.auditChainBroken loanId b.seq b.expected b.actual)) d') ∨
        Clash ((d.after ts).store.entriesOf loanId)) ∧
    ((∀ x ∈ (d.after ts).store.entriesOf loanId, ∀ y ∈ (d.after ts).store.entriesOf loanId,
      x.seq ∉ seqs → y.seq ∈ seqs → x.seq < y.seq) →
        (∃ d', scope (AuditLog.verify loanId) ((d.after ts).prepared clock .none) = .ok () d') →
        ∃ d', scope (AuditLog.verify loanId) (((d.after ts).without loanId seqs).prepared clock .none) =
          .ok () d') := by
  have rising := (after_ranked hts hg (hd ▸ ranked_empty)).2.rising loanId
  have left := without_entriesOf rising seqs
  rw [entriesOf_of_rising rising] at left ⊢
  have prepared (d : Desk) : (d.prepared clock .none).store = d.store := rfl
  have calm (d : Desk) : (d.prepared clock .none).IsCalm := ⟨rfl, rfl, rfl⟩
  refine ⟨fun x hx y hy hxs hys hlt => ?_, fun hlt ⟨d₁, hv⟩ => ?_⟩
  · rcases rising.detects (p := (·.seq ∉ seqs)) hx (by simpa using hxs) hy (by simpa using hys)
      hlt with ⟨b, hb, hle⟩ | hc
    · rw [← left, ← prepared] at hb
      obtain ⟨d', hr⟩ := scope_verify_break (calm _) hb
      exact .inl ⟨b, d', hle, hr⟩
    · exact .inr hc
  · obtain ⟨log, d₂, hv⟩ := scope_ok hv
    have sound : AuditLog.firstBreak? none ((d.after ts).store.entriesOf loanId) = .ok none := verify_ok rfl hv
    have front := rising.filter_isPrefix (p := (·.seq ∉ seqs)) fun x hx y hy px py =>
      hlt x hx y hy (by simpa using px) (by simpa using py)
    obtain ⟨rest, hrest⟩ := front
    refine scope_verify_sound (calm _) ?_
    rw [prepared, left]
    rw [entriesOf_of_rising rising, ← hrest] at sound
    exact firstBreak?_prefix sound

/-! ## A ledger with a log of more than one entry -/

/-- An event that is applied puts an entry behind those of its loan. -/
theorem applied_newer {g : Engine} {e : Event} {a b : String} {rs : List ActionResult} {clock : Clock} {z : Disturbance}
    (hz : z.IsHonest) (h : (g.handle e).answer (d.prepared clock z) = .ok (Outcome.of e (.applied a b rs)))
    (hr : Ranked d.store) (hy : y ∈ d.store.logOf e.loanId) :
    y ∈ (d.turn ⟨clock, z, .call g (.handle e)⟩).store.logOf e.loanId ∧
      ∃ x ∈ (d.turn ⟨clock, z, .call g (.handle e)⟩).store.logOf e.loanId, y.seq < x.seq := by
  obtain ⟨d', handled⟩ := Work.ok_of_answer h
  have served := serve_served g (.handle e) (d := d.prepared clock z) hz
  have hs : g.serve (.handle e) (d.prepared clock z) = .ok (.handled (Outcome.of e (.applied a b rs))) d' :=
    Work.map_of_ok handled
  rw [turn_call, Work.desk_of_ok hs]
  rw [hs] at served
  cases served with
  | duplicate hdup _ => cases hdup
  | told _ ht =>
    cases ht with
    | @applied _ _ _ _ _ x _ t₂ _ _ _ _ requested moved ha =>
      have grown : Grows d.store t₂ := requested.grows.trans (.of_same moved.entries moved.counters)
      obtain ⟨ranked, keeping⟩ := grown hr
      have hy₂ : y ∈ t₂.logOf e.loanId := (List.IsPrefix.filter _ keeping).subset hy
      rw [ha.logOf]
      exact ⟨List.mem_append_left _ hy₂, x, by simp, ha.seq ▸ ranked.behind _ y hy₂⟩

theorem loopedOnce_honest : ∀ x ∈ loopedOnce, x.disturbance.IsHonest := by
  intro x hx
  simp only [loopedOnce, List.mem_cons, List.not_mem_nil, or_false] at hx
  rcases hx with rfl | rfl <;> exact Disturbance.none_isHonest

theorem openedAtNoon_logOf : ∃ x, (noon.after openedAtNoon).store.logOf "L1" = [x] ∧ x.seq = 1 := by
  obtain ⟨l, x, hstore, hof, hseq⟩ := openedAtNoon_store
  refine ⟨x, ?_, hseq⟩
  rw [hstore, Tables.logOf, List.filter_cons_of_pos (by simpa using hof), List.filter_nil]

/-- An event that was applied left a second entry. -/
theorem loopedOnce_logOf : ∃ y ∈ (noon.after loopedOnce).store.logOf "L1", y.seq = 1 ∧
    ∃ x ∈ (noon.after loopedOnce).store.logOf "L1", 1 < x.seq := by
  obtain ⟨rs, applied⟩ := knock_applied
  obtain ⟨y, hlog, hseq⟩ := openedAtNoon_logOf
  have ranked := (after_ranked openedAtNoon_honest (d := noon) rfl ranked_empty).2
  have ofLoan : knock.loanId = "L1" := rfl
  have first : y ∈ (noon.after openedAtNoon).store.logOf knock.loanId := by
    rw [ofLoan, hlog]; exact List.mem_singleton_self y
  have newer := applied_newer Disturbance.none_isHonest applied ranked first
  rw [openedAtNoon, after_singleton, ofLoan] at newer
  obtain ⟨hy, x, hx, hlt⟩ := newer
  rw [loopedOnce, after_cons, after_singleton]
  exact ⟨y, hy, hseq, x, hx, hseq ▸ hlt⟩

/-- The first entry is missing, and the second one is left. -/
theorem missing_entries_detected_at_noon :
    noon.store = .empty ∧ noon.isGuarded = true ∧ (∀ x ∈ loopedOnce, x.disturbance.IsHonest) ∧
      (∃ x ∈ (noon.after loopedOnce).store.entriesOf "L1", ∃ y ∈ (noon.after loopedOnce).store.entriesOf "L1",
        x.seq ∉ [(1 : Int)] ∧ y.seq ∈ [(1 : Int)] ∧ y.seq < x.seq) ∧
      ((∃ (b : AuditLog.Break) (d' : Desk),
        scope (AuditLog.verify "L1") (((noon.after loopedOnce).without "L1" [1]).prepared noon.clock .none) =
          .error (.failure (.auditChainBroken "L1" b.seq b.expected b.actual)) d') ∨
        Clash ((noon.after loopedOnce).store.entriesOf "L1")) := by
  obtain ⟨y, hy, hseq, x, hx, hlt⟩ := loopedOnce_logOf
  have ranked := (after_ranked loopedOnce_honest (d := noon) rfl ranked_empty).2
  rw [← entriesOf_of_rising (ranked.rising "L1")] at hy hx
  have left : x.seq ∉ [(1 : Int)] := by
    rw [List.mem_singleton]
    omega
  have gone : y.seq ∈ [(1 : Int)] := List.mem_singleton.mpr hseq
  refine ⟨rfl, rfl, loopedOnce_honest, ⟨x, hx, y, hy, left, gone, hseq ▸ hlt⟩, ?_⟩
  have detected := (missing_entries_detected noon loopedOnce rfl rfl loopedOnce_honest "L1" [1] noon.clock).1 x hx y hy
    left gone (hseq ▸ hlt)
  rcases detected with ⟨b, d', -, hr⟩ | hc
  · exact .inl ⟨b, d', hr⟩
  · exact .inr hc

/-- The only entry is missing, and nobody sees it. -/
theorem newest_entry_missed :
    noon.store = .empty ∧ noon.isGuarded = true ∧ (∀ x ∈ openedAtNoon, x.disturbance.IsHonest) ∧
      (∃ x ∈ (noon.after openedAtNoon).store.entriesOf "L1", x.seq ∈ [(1 : Int)]) ∧
      ¬ Clash ((noon.after openedAtNoon).store.entriesOf "L1") ∧
      ∃ d', scope (AuditLog.verify "L1") (((noon.after openedAtNoon).without "L1" [1]).prepared noon.clock .none) =
        .ok () d' := by
  obtain ⟨x, hlog, hseq⟩ := openedAtNoon_logOf
  have rising := (after_ranked openedAtNoon_honest (d := noon) rfl ranked_empty).2.rising "L1"
  have left := without_entriesOf rising [1]
  rw [entriesOf_of_rising rising, hlog] at left ⊢
  have prepared (d : Desk) : (d.prepared noon.clock .none).store = d.store := rfl
  refine ⟨rfl, rfl, openedAtNoon_honest, ⟨x, List.mem_singleton_self x, List.mem_singleton.mpr hseq⟩, ?_, ?_⟩
  · rintro ⟨y, hy, z, hz, hne, -⟩
    exact hne (by rw [List.mem_singleton.mp hy, List.mem_singleton.mp hz])
  · refine scope_verify_sound ⟨rfl, rfl, rfl⟩ ?_
    rw [prepared, left, List.filter_cons_of_neg (by simp [hseq]), List.filter_nil]
    rfl

end LoanLedger.Ledger
