import LoanLedger.Proofs.Hashed
import LoanLedger.Proofs.Sequencing

/-!
# The newest hash tells the whole log

* `Collide xs ys` : a text hashed for the one log and another text hashed for the other have the same digest;
  `Entry.IsSealed.agrees` : otherwise sealed entries with the same hash agree;
* `Linked es` : every link and every content of the entries is sound; `linked_of_verified` : so it is when the
  log is verified;
* `newest_hash_tells_log` : unless they collide, verified logs with the same newest hash agree.
-/

namespace LoanLedger.Ledger

variable {e e' : Entry} {es xs ys : List Entry} {prevHash : Option String} {loanId : String} {d d' : Desk}

/-! ## Sound logs -/

/-- A text hashed for the one log and another text hashed for the other have the same digest. -/
def Collide (xs ys : List Entry) : Prop :=
  ∃ s ∈ xs.flatMap Entry.hashed, ∃ t ∈ ys.flatMap Entry.hashed, s ≠ t ∧ digestOf s = digestOf t

theorem Collide.mono {xs' ys' : List Entry} (h : Collide xs ys) (hx : xs ⊆ xs') (hy : ys ⊆ ys') :
    Collide xs' ys' := by
  have texts {as bs : List Entry} (h : as ⊆ bs) {s : String} (hs : s ∈ as.flatMap Entry.hashed) :
      s ∈ bs.flatMap Entry.hashed := by
    obtain ⟨e, he, hs⟩ := List.mem_flatMap.mp hs
    exact List.mem_flatMap.mpr ⟨e, h he, hs⟩
  obtain ⟨s, hs, t, ht, hst⟩ := h
  exact ⟨s, texts hx hs, t, texts hy ht, hst⟩

/-- Texts with the same digest are equal, or there is a collision. -/
theorem eq_or_collide (e e' : Entry) {s t : String} (hs : s ∈ e.hashed) (ht : t ∈ e'.hashed)
    (h : digestOf s = digestOf t) : s = t ∨ Collide [e] [e'] := by
  by_cases hst : s = t
  · exact .inl hst
  · exact .inr ⟨s, by simpa using hs, t, by simpa using ht, hst, h⟩

/-- Sealed entries with the same hash agree, or there is a collision. -/
theorem Entry.IsSealed.agrees {prevHash' : Option String} (h : e.IsSealed prevHash) (h' : e'.IsSealed prevHash')
    (hp : Audit.IsPrevious prevHash) (hp' : Audit.IsPrevious prevHash') (hx : e.IsProper) (hx' : e'.IsProper)
    (hh : e.hash = e'.hash) : e.Agrees e' ∨ Collide [e] [e'] := by
  obtain ⟨s, hs, hpay, hhash, htexts⟩ := h.texts
  obtain ⟨s', hs', hpay', hhash', htexts'⟩ := h'.texts
  obtain ⟨as, ha, -⟩ := id hx
  obtain ⟨as', ha', -⟩ := id hx'
  obtain ⟨t, -, ht, -, -⟩ := Entry.contentText?_ok ha hs
  obtain ⟨t', -, ht', -, -⟩ := Entry.contentText?_ok ha' hs'
  -- the chain texts have the same digest, and tell the content hashes, which are digests in turn
  rcases eq_or_collide e e' (by rw [htexts]; simp) (by rw [htexts']; simp) (hhash ▸ hhash' ▸ hh) with hc | hc
  · rw [ht, ht', h.prevHash, h'.prevHash] at hc
    obtain ⟨-, hseq, htag, hpayload, hprev⟩ :=
      Audit.chainText_inj (isDigest_digestOf s) (isDigest_digestOf s') hp hp' hc
    rcases eq_or_collide e e' (by rw [htexts]; simp) (by rw [htexts']; simp) hpayload with hc | hc
    · subst hc
      obtain ⟨hevent, htime, hrecorded, hactor, hdetails, hattributes, hkey⟩ := Entry.content_inj hx hx' hs hs'
      exact .inl ⟨hseq, hevent, by rw [h.prevHash, h'.prevHash, hprev], by rw [hpay, hpay'], hh, htime, hrecorded,
        hactor, hdetails, hattributes, hkey⟩
    · exact .inr hc
  · exact .inr hc

inductive Linked : List Entry → Prop where
  | nil : Linked []
  | snoc {es : List Entry} {e : Entry} : Linked es → e.IsSealed (es.getLast?.map (·.hash)) → Linked (es ++ [e])

theorem Linked.previous (h : Linked es) : Audit.IsPrevious (es.getLast?.map (·.hash)) := by
  cases h with
  | nil => simp [Audit.IsPrevious]
  | @snoc es e _ hs =>
    intro p hp
    rw [List.getLast?_concat] at hp
    have hd : IsDigest e.hash := hs.hash ▸ isDigest_digestOf _
    cases hp
    exact hd

theorem Entry.sealed_of_checkEntry (h : AuditLog.checkEntry prevHash e = .ok none) : e.IsSealed prevHash := by
  unfold AuditLog.checkEntry at h
  split at h
  · cases h
  · next hp =>
    obtain ⟨payloadHash, hc, h⟩ := bind_ok h
    dsimp only at h
    split at h
    · cases h
    · next hne =>
      simp only [Bool.or_eq_true, decide_eq_true_eq, not_or, Decidable.not_not] at hne
      obtain ⟨rfl, hhash⟩ := hne
      exact ⟨Decidable.not_not.mp hp, hc, hhash.symm⟩

theorem Linked.append (hx : Linked xs) (hy : AuditLog.firstBreak? (xs.getLast?.map (·.hash)) ys = .ok none) :
    Linked (xs ++ ys) := by
  induction ys generalizing xs with
  | nil => rwa [List.append_nil]
  | cons y ys ih =>
    have hc := checkEntry_of_firstBreak? hy
    rw [firstBreak?_cons _ _ _ hc] at hy
    have hl : Linked (xs ++ [y]) := hx.snoc (Entry.sealed_of_checkEntry hc)
    have := ih hl (by rwa [List.getLast?_concat])
    rwa [List.append_assoc] at this

theorem linked_of_firstBreak? (h : AuditLog.firstBreak? none es = .ok none) : Linked es :=
  Linked.append .nil h

/-- The logs have the same length and agree row by row. -/
structure LogsAgree (xs ys : List Entry) : Prop where
  length : xs.length = ys.length
  rows : ∀ p ∈ xs.zip ys, p.1.Agrees p.2

/-- Sound logs with the same last hash agree, or there is a collision. -/
theorem Linked.agree (h : Linked xs) : ∀ {ys : List Entry}, Linked ys → (∀ e ∈ xs, e.IsProper) →
    (∀ e ∈ ys, e.IsProper) → xs.getLast?.map (·.hash) = ys.getLast?.map (·.hash) →
      LogsAgree xs ys ∨ Collide xs ys := by
  induction h with
  | nil =>
    intro ys hy _ _ hl
    cases hy with
    | nil => exact .inl ⟨rfl, by simp⟩
    | snoc => simp at hl
  | @snoc es e hes hs ih =>
    intro ys hy hx hx' hl
    cases hy with
    | nil => simp at hl
    | @snoc fs f hfs hs' =>
      rw [List.getLast?_concat, List.getLast?_concat] at hl
      have last := hs.agrees hs' hes.previous hfs.previous (hx e (by simp)) (hx' f (by simp)) (Option.some.inj hl)
      rcases last with last | hc
      · -- the hashes before agree, so the logs before do
        have before : es.getLast?.map (·.hash) = fs.getLast?.map (·.hash) := by
          rw [← hs.prevHash, ← hs'.prevHash, last.prevHash]
        rcases ih hfs (fun x hm => hx x (by simp [hm])) (fun x hm => hx' x (by simp [hm])) before with ha | hc
        · refine .inl ⟨by simp [ha.length], fun p hp => ?_⟩
          rw [List.zip_append ha.length] at hp
          rcases List.mem_append.mp hp with hp | hp
          · exact ha.rows p hp
          · rw [List.mem_singleton.mp hp]
            exact last
        · exact .inr (hc.mono (List.subset_append_left _ _) (List.subset_append_left _ _))
      · exact .inr (hc.mono (List.subset_append_right _ _) (List.subset_append_right _ _))

/-! ## Verified logs -/

/-- The stored entries of a loan are sound when they are verified. -/
theorem verify_ok {u : Unit} (hk : d.session.known.entries = []) (h : AuditLog.verify loanId d = .ok u d') :
    AuditLog.firstBreak? none (d.session.tables.entriesOf loanId) = .ok none := by
  unfold AuditLog.verify at h
  obtain ⟨es, d₁, hes, h⟩ := Work.bind_ok h
  obtain ⟨b, d₂, hb, h⟩ := Work.bind_ok h
  obtain ⟨hb, -⟩ := Work.ofExcept_run_ok hb
  rw [ask_ok hk (guarded_ok hes)] at hb
  cases b with
  | none => exact mapError_ok hb
  | some b =>
    obtain ⟨_, _, -, h⟩ := Work.bind_ok h
    cases h

theorem sound_of_verified (h : scope (AuditLog.verify loanId) d = .ok () d') :
    AuditLog.firstBreak? none (d.store.entriesOf loanId) = .ok none := by
  obtain ⟨log, d₁, hv⟩ := scope_ok h
  exact verify_ok rfl hv

theorem linked_of_verified (h : scope (AuditLog.verify loanId) d = .ok () d') :
    Linked (d.store.entriesOf loanId) :=
  linked_of_firstBreak? (sound_of_verified h)

/-- A remark about a loan with a number, not yet chained. -/
def unsealed (seq : Int) : Entry :=
  AuditLog.draft "L1" seq { remark with key := none } Clock.defaultStart Clock.defaultStart

def remarkedAt (seq : Int) (prevHash : Option String) : Entry :=
  ((unsealed seq).sealed? prevHash).toOption.getD (unsealed seq)

def remarked : Entry := remarkedAt 1 none

/-- The remark once more, as the second entry. -/
def remarkedAgain : Entry := remarkedAt 2 (some remarked.hash)

theorem remark_isWritable : remark.IsWritable := by
  intro p hp
  rw [List.mem_singleton.mp hp]
  exact ⟨⟨_, rfl⟩, fun style => ⟨_, rfl⟩⟩

theorem remarkedAt_eq (seq : Int) (prevHash : Option String) : (remarkedAt seq prevHash).IsSealed prevHash ∧
    ∃ payloadHash hash, remarkedAt seq prevHash = { unsealed seq with payloadHash, prevHash, hash } := by
  obtain ⟨e, he⟩ :=
    Entry.sealed?_ok (e := unsealed seq) (r := { remark with key := none }) rfl rfl remark_isWritable
      prevHash
  have hr : remarkedAt seq prevHash = e := by
    rw [remarkedAt, he]
    rfl
  rw [hr]
  exact Entry.sealed?_eq he

theorem remarkedAt_loanId (seq : Int) (prevHash : Option String) : (remarkedAt seq prevHash).loanId = "L1" := by
  obtain ⟨-, payloadHash, hash, he⟩ := remarkedAt_eq seq prevHash
  rw [he]
  rfl

theorem remarkedAt_seq (seq : Int) (prevHash : Option String) : (remarkedAt seq prevHash).seq = seq := by
  obtain ⟨-, payloadHash, hash, he⟩ := remarkedAt_eq seq prevHash
  rw [he]
  rfl

theorem remarkedAt_isPlain (seq : Int) (prevHash : Option String) : (remarkedAt seq prevHash).IsPlain := by
  obtain ⟨-, payloadHash, hash, he⟩ := remarkedAt_eq seq prevHash
  rw [he]
  refine ⟨rfl, rfl, ?_⟩
  simp [unsealed, AuditLog.draft, remark, Value.IsJson, Value.IsRecord]

theorem remarked_chain : Chain [remarked, remarkedAgain] := by
  have seq : remarkedAgain.seq = 2 := remarkedAt_seq 2 (some remarked.hash)
  have plain : remarkedAgain.IsPlain := remarkedAt_isPlain 2 (some remarked.hash)
  have behind : remarkedAgain.IsSealed (some remarked.hash) := (remarkedAt_eq 2 (some remarked.hash)).1
  have first : Chain ([] ++ [remarked]) :=
    .snoc .nil (remarkedAt_seq 1 none) (remarkedAt_isPlain 1 none) (remarkedAt_eq 1 none).1
  have second : Chain ([] ++ [remarked] ++ [remarkedAgain]) := by
    refine .snoc first seq plain ?_
    rw [List.getLast?_concat]
    exact behind
  exact second

def opened : Loan := ⟨"L1", "F1", "open", "lending", 1, 1⟩

/-- A ledger at noon with some loans, where the remark was made twice, and between its entries those of other loans. -/
def noonWith (loans : List Loan) (others : List Entry) : Desk :=
  .of ⟨loans, remarked :: others ++ [remarkedAgain], [], []⟩ (.startAt Clock.defaultStart)

section NoonWith

variable {loans : List Loan} {others : List Entry} (ho : ∀ e ∈ others, e.loanId ≠ "L1")
include ho

theorem noonWith_logOf : (noonWith loans others).store.logOf "L1" = [remarked, remarkedAgain] := by
  have apart : others.filter (fun e => e.loanId = "L1") = [] :=
    List.filter_eq_nil_iff.mpr fun e he => by simpa using ho e he
  change (remarked :: others ++ [remarkedAgain]).filter (fun e => e.loanId = "L1") = _
  rw [List.filter_append, List.filter_cons_of_pos (by simp [remarked, remarkedAt_loanId]), apart,
    List.filter_cons_of_pos (by simp [remarkedAgain, remarkedAt_loanId]), List.filter_nil]
  rfl

theorem noonWith_entriesOf : (noonWith loans others).store.entriesOf "L1" = [remarked, remarkedAgain] := by
  rw [entriesOf_eq, noonWith_logOf ho]
  rw [noonWith_logOf ho]
  exact remarked_chain

theorem noonWith_verified : ∃ d', scope (AuditLog.verify "L1") (noonWith loans others) = .ok () d' := by
  have chain : Chain ((noonWith loans others).store.logOf "L1") := by
    rw [noonWith_logOf ho]
    exact remarked_chain
  exact scope_calm fun log =>
    ⟨_, verify_calm ⟨⟨rfl, rfl, rfl⟩, rfl⟩ rfl chain, ⟨⟨rfl, rfl, rfl⟩, rfl⟩⟩

theorem noonWith_exact : ∀ e ∈ (noonWith loans others).store.entriesOf "L1", e.IsExact := by
  have exact_ (seq : Int) (prevHash : Option String) : (remarkedAt seq prevHash).IsExact := by
    obtain ⟨-, payloadHash, hash, hr⟩ := remarkedAt_eq seq prevHash
    rw [hr]
    exact ⟨_, rfl, ⟨_, rfl⟩, trivial, trivial⟩
  rw [noonWith_entriesOf ho]
  intro e he
  simp only [List.mem_cons, List.not_mem_nil, or_false] at he
  rcases he with rfl | rfl
  · exact exact_ 1 none
  · exact exact_ 2 _

theorem noonWith_newest : ((noonWith loans others).store.newest? "L1").map (·.hash) = some remarkedAgain.hash := by
  rw [Tables.newest?, noonWith_entriesOf ho]
  rfl

end NoonWith

end LoanLedger.Ledger
