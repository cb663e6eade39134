import LoanLedger.Proofs.Missing

/-!
# What verifying says of any log

Rows can be changed below the session, so that a log may hold any rows at all.

* `Entry.Breaks e prevHash expected actual` : how a row is wrong behind a hash, and the two hashes that tell so;
* `Entry.IsReadable e` : the row has a known tag and an object as attributes; `Entry.IsReadable.content` : then it has a
  content;
* `Judged loanId es answer` : what may be said of a log: that it is sound, that it breaks at the first row that is
  wrong, or that there the content cannot be told;
* `any_log_judged` : that is what verifying says, of any rows;
* `unknown_tag_escapes` : so that a row with an unknown tag is not told as a break.
-/

namespace LoanLedger.Ledger

variable {d : Desk} {loanId : String} {es xs ys : List Entry} {e : Entry} {prevHash expected actual : Option String}
  {b : AuditLog.Break} {err : ContentError}

/-! ## Rows -/

namespace Entry

/-- The row is not linked behind a hash; or it is, and its hashes are not those of its content and its place. -/
inductive Breaks (e : Entry) (prevHash : Option String) : Option String → Option String → Prop where
  | linkage : e.prevHash ≠ prevHash → Breaks e prevHash prevHash e.prevHash
  | content {payloadHash : String} : e.prevHash = prevHash → e.payloadHash? = .ok payloadHash →
    payloadHash ≠ e.payloadHash ∨ Audit.chainHash e.loanId e.seq e.event payloadHash e.prevHash ≠ e.hash →
    Breaks e prevHash (some (Audit.chainHash e.loanId e.seq e.event payloadHash e.prevHash)) (some e.hash)

theorem Breaks.unsealed (h : e.Breaks prevHash expected actual) : ¬ e.IsSealed prevHash := by
  intro hs
  cases h with
  | linkage hne => exact hne hs.prevHash
  | content _ hp hne =>
    cases hs.payloadHash.symm.trans hp
    rcases hne with hne | hne
    · exact hne rfl
    · exact hne hs.hash.symm

/-- The row has a known tag, and its attributes are an object, or a value that counts as none. -/
structure IsReadable (e : Entry) : Prop where
  tag : ∃ t : Audit.Tag, e.event = t.word
  attributes : ∃ j : Json, j.IsShort ∧ e.attributes = j.toValue ∧
    (e.attributes.isTruthy = true → ∃ ms, j = .object ms)

theorem contentText?_of_details {as : Entries} (h : e.details? = .ok as) :
    e.contentText? = { e with attributes := .map as }.contentText? := by
  have same : ({ e with attributes := .map as } : Entry).details? = e.details? := (details?_of_map rfl).trans h.symm
  unfold contentText? content?
  rw [same]
  rfl

theorem IsReadable.content (h : e.IsReadable) : ∃ s, e.contentText? = .ok s := by
  obtain ⟨t, ht⟩ := h.tag
  obtain ⟨j, short, ha, hobject⟩ := h.attributes
  cases htruthy : e.attributes.isTruthy with
  | true =>
    obtain ⟨ms, rfl⟩ := hobject htruthy
    exact content_of_object ht short ha
  | false =>
    have none : e.details? = .ok [] := by
      rw [details?, htruthy]
      rfl
    have object : Value.map [] = Json.toValue (.object []) := by
      rw [Json.toValue, Json.toPairs]
      rfl
    have short : Json.HaveShort [] := trivial
    rw [contentText?_of_details none]
    exact content_of_object ht short object

theorem contentText?_of_unknown (h : Audit.Tag.ofWord? e.event = none) :
    e.contentText? = .error (.unknownTag e.event) := by
  unfold contentText? content? tag?
  rw [h]
  rfl

theorem contentText?_of_payloadHash? (h : e.payloadHash? = .error err) : e.contentText? = .error err := by
  unfold payloadHash? at h
  cases hc : e.contentText? with
  | ok s => rw [hc] at h; cases h
  | error x => rw [hc] at h; cases h; rfl

end Entry

/-! ## Checks -/

/-- A check tells a row that is wrong. -/
theorem checkEntry_breaks (h : AuditLog.checkEntry prevHash e = .ok (some b)) :
    b.seq = e.seq ∧ e.Breaks prevHash b.expected b.actual := by
  unfold AuditLog.checkEntry at h
  split at h
  · next hne =>
    cases h
    exact ⟨rfl, .linkage hne⟩
  · next hp =>
    obtain ⟨payloadHash, hc, h⟩ := bind_ok h
    dsimp only at h
    split at h
    · next hne =>
      cases h
      simp only [Bool.or_eq_true, decide_eq_true_eq] at hne
      exact ⟨rfl, .content (Decidable.not_not.mp hp) hc hne⟩
    · cases h

/-- A check fails at a row that is linked but has no content. -/
theorem checkEntry_error (h : AuditLog.checkEntry prevHash e = .error err) :
    e.prevHash = prevHash ∧ e.contentText? = .error err := by
  unfold AuditLog.checkEntry at h
  split at h
  · cases h
  · next hp =>
    refine ⟨Decidable.not_not.mp hp, Entry.contentText?_of_payloadHash? ?_⟩
    cases hc : e.payloadHash? with
    | ok payloadHash => rw [hc] at h; cases h
    | error x => rw [hc] at h; cases h; rfl

/-! ## Logs -/

/-- What may be said of a log: that it is sound; that it breaks at the first row that is wrong, with its number and two
hashes; or that the content of the first row that is not sealed cannot be told. -/
inductive Judged (loanId : String) (es : List Entry) : Except Error Unit → Prop where
  | sound : Linked es → Judged loanId es (.ok ())
  | broken {xs ys : List Entry} {e : Entry} {expected actual : Option String} : es = xs ++ e :: ys → Linked xs →
    e.Breaks (xs.getLast?.map (·.hash)) expected actual →
    Judged loanId es (.error (.failure (.auditChainBroken loanId e.seq expected actual)))
  | unreadable {xs ys : List Entry} {e : Entry} {err : ContentError} : es = xs ++ e :: ys → Linked xs →
    e.prevHash = xs.getLast?.map (·.hash) → e.contentText? = .error err →
    Judged loanId es (.error (.content err))

def told (loanId : String) : Except ContentError (Option AuditLog.Break) → Except Error Unit
  | .ok none => .ok ()
  | .ok (some b) => .error (.failure (.auditChainBroken loanId b.seq b.expected b.actual))
  | .error err => .error (.content err)

/-- Behind a sound part, the next row is sealed, or the log is judged there. -/
theorem Linked.judged (hx : Linked xs) :
    Judged loanId (xs ++ ys) (told loanId (AuditLog.firstBreak? (xs.getLast?.map (·.hash)) ys)) := by
  induction ys generalizing xs with
  | nil =>
    rw [List.append_nil]
    exact .sound hx
  | cons y ys ih =>
    rw [AuditLog.firstBreak?]
    cases hc : AuditLog.checkEntry (xs.getLast?.map (·.hash)) y with
    | error err =>
      obtain ⟨hp, herr⟩ := checkEntry_error hc
      exact .unreadable rfl hx hp herr
    | ok o =>
      cases o with
      | some b =>
        obtain ⟨hs, hb⟩ := checkEntry_breaks hc
        have broken : Judged loanId (xs ++ y :: ys)
            (.error (.failure (.auditChainBroken loanId y.seq b.expected b.actual))) := .broken rfl hx hb
        rwa [← hs] at broken
      | none =>
        have rest := ih (hx.snoc (Entry.sealed_of_checkEntry hc))
        rw [List.getLast?_concat, List.append_assoc] at rest
        exact rest

/-- What is said where every row can be read. -/
theorem Judged.of_readable {answer : Except Error Unit} (h : Judged loanId es answer)
    (hr : ∀ e ∈ es, e.IsReadable) :
    (answer = .ok () ∧ Linked es) ∨ ∃ xs e ys expected actual, es = xs ++ e :: ys ∧ Linked xs ∧
      e.Breaks (xs.getLast?.map (·.hash)) expected actual ∧
      answer = .error (.failure (.auditChainBroken loanId e.seq expected actual)) := by
  cases h with
  | sound hl => exact .inl ⟨rfl, hl⟩
  | broken hsplit hl hb => exact .inr ⟨_, _, _, _, _, hsplit, hl, hb, rfl⟩
  | @unreadable xs ys e err hsplit _ _ herr =>
    obtain ⟨s, hs⟩ := (hr e (by simp [hsplit])).content
    cases hs.symm.trans herr

/-! ## Verifying -/

theorem verify_unreadable (hd : d.IsReady) (hk : d.session.known.entries = [])
    (h : AuditLog.firstBreak? none (d.session.tables.entriesOf loanId) = .error err) :
    AuditLog.verify loanId d = .error (.content err) d := by
  unfold AuditLog.verify
  rw [Work.bind_of_ok (guarded_of_ok (ask_calm hd hk (·.entriesOf loanId))), h]
  rfl

/-- Verifying says what is said of the stored rows, and changes none. -/
theorem verify_tells (hd : d.IsCalm) (loanId : String) :
    (scope (AuditLog.verify loanId)).answer d = told loanId (AuditLog.firstBreak? none (d.store.entriesOf loanId)) ∧
      ((scope (AuditLog.verify loanId)).desk d).store = d.store := by
  obtain ⟨log, hs⟩ := start_run d
  have started := Work.desk_of_ok hs
  have ready : (start.desk d).IsReady := by
    rw [started]
    exact ⟨⟨hd.faults, hd.rival, hd.checks⟩, rfl⟩
  have known : (start.desk d).session.known.entries = [] := by
    rw [started]
    rfl
  have rows : (start.desk d).session.tables = d.store := by
    rw [started]
    rfl
  have failed {err : Error} {d₁ : Desk} (h : AuditLog.verify loanId (start.desk d) = .error err d₁) :
      (scope (AuditLog.verify loanId)).answer d = .error err ∧
      ((scope (AuditLog.verify loanId)).desk d).store = d.store := by
    have near : (start.desk d).Near d₁ := Keeps.error h
    obtain ⟨d', hr, hstore⟩ := scope_of_error h
    refine ⟨Work.answer_of_error hr, ?_⟩
    rw [Work.desk_of_error hr, hstore, near.store, started]
  cases hb : AuditLog.firstBreak? none (d.store.entriesOf loanId) with
  | error err =>
    rw [← rows] at hb
    exact failed (verify_unreadable ready known hb)
  | ok o =>
    rw [← rows] at hb
    cases o with
    | some b =>
      obtain ⟨d₁, hv⟩ := verify_break ready known hb
      exact failed hv
    | none =>
      obtain ⟨d', hr, hstore⟩ := scope_of_ok (verify_sound ready known hb) ready
      refine ⟨Work.answer_of_ok hr, ?_⟩
      rw [Work.desk_of_ok hr, hstore, rows]

/-- Verifying judges any log. Whatever the stored rows of a loan are, verifying says that they are sound where they
are, and else that the log is broken at the first row that is wrong, with its number and the hashes that should have
been and are there; unless that row is linked, but its tag or its attributes cannot be read. Where every row has a
known tag and an object as attributes, it says one of the first two. No row is changed. -/
theorem any_log_judged (d : Desk) (clock : Clock) (loanId : String) :
    Judged loanId (d.store.entriesOf loanId) ((scope (AuditLog.verify loanId)).answer (d.prepared clock .none)) ∧
      ((scope (AuditLog.verify loanId)).desk (d.prepared clock .none)).store = d.store ∧
      ((∀ e ∈ d.store.entriesOf loanId, e.IsReadable) →
        ((scope (AuditLog.verify loanId)).answer (d.prepared clock .none) = .ok () ∧
          Linked (d.store.entriesOf loanId)) ∨
        ∃ xs e ys expected actual, d.store.entriesOf loanId = xs ++ e :: ys ∧ Linked xs ∧
          e.Breaks (xs.getLast?.map (·.hash)) expected actual ∧
          (scope (AuditLog.verify loanId)).answer (d.prepared clock .none) =
            .error (.failure (.auditChainBroken loanId e.seq expected actual))) := by
  have calm : (d.prepared clock .none).IsCalm := ⟨rfl, rfl, rfl⟩
  obtain ⟨tells, kept⟩ := verify_tells calm loanId
  have judged : Judged loanId (d.store.entriesOf loanId)
      ((scope (AuditLog.verify loanId)).answer (d.prepared clock .none)) := by
    rw [tells]
    exact Linked.nil.judged
  exact ⟨judged, kept, judged.of_readable⟩

/-! ## Ledgers with some rows -/

/-- A ledger at noon with rows and no loan. -/
def noonShowing (es : List Entry) : Desk :=
  .of ⟨[], es, [], []⟩ (.startAt Clock.defaultStart)

theorem noonShowing_entriesOf (ho : ∀ e ∈ es, e.loanId = "L1") (hs : es.Pairwise fun a b => a.seq ≤ b.seq) :
    (noonShowing es).store.entriesOf "L1" = es := by
  have log : (noonShowing es).store.logOf "L1" = es := List.filter_eq_self.mpr fun e he => by simpa using ho e he
  rw [entriesOf_of_sorted (by rwa [log]), log]

theorem remarkedAt_isReadable (seq : Int) (prevHash : Option String) : (remarkedAt seq prevHash).IsReadable := by
  obtain ⟨-, payloadHash, hash, he⟩ := remarkedAt_eq seq prevHash
  rw [he]
  exact ⟨⟨.ignoredEvent, rfl⟩, .object [("state", .text "open")], ⟨trivial, trivial⟩, rfl,
    fun _ => ⟨_, rfl⟩⟩

def wiped : List Entry := [remarked, { remarkedAgain with hash := "" }]

theorem wiped_entriesOf : (noonShowing wiped).store.entriesOf "L1" = wiped := by
  refine noonShowing_entriesOf (fun e he => ?_) ?_
  · simp only [wiped, List.mem_cons, List.not_mem_nil, or_false] at he
    rcases he with rfl | rfl
    · exact remarkedAt_loanId 1 none
    · exact remarkedAt_loanId 2 (some remarked.hash)
  · have first : remarked.seq = 1 := remarkedAt_seq 1 none
    have second : remarkedAgain.seq = 2 := remarkedAt_seq 2 (some remarked.hash)
    simp [wiped, first, second]

theorem wiped_isReadable : ∀ e ∈ wiped, e.IsReadable := by
  intro e he
  simp only [wiped, List.mem_cons, List.not_mem_nil, or_false] at he
  rcases he with rfl | rfl
  · exact remarkedAt_isReadable 1 none
  · have again : remarkedAgain.IsReadable := remarkedAt_isReadable 2 (some remarked.hash)
    exact ⟨again.tag, again.attributes⟩

theorem wiped_unlinked : ¬ Linked wiped := by
  intro hl
  generalize hes : wiped = es at hl
  cases hl with
  | nil => cases hes
  | snoc _ hs =>
    obtain ⟨-, he⟩ := List.append_inj' (show [remarked] ++ [_] = _ from hes) rfl
    cases he
    exact (isDigest_digestOf _).ne_empty hs.hash.symm

/-- The second row can be read but is not sealed, and it is told as the break. -/
theorem any_log_judged_at_noon :
    (∀ e ∈ (noonShowing wiped).store.entriesOf "L1", e.IsReadable) ∧ Linked [remarked] ∧
      ¬ Linked ((noonShowing wiped).store.entriesOf "L1") ∧
      ∃ expected actual, (scope (AuditLog.verify "L1")).answer
        ((noonShowing wiped).prepared (.startAt Clock.defaultStart) .none) =
          .error (.failure (.auditChainBroken "L1" 2 expected actual)) := by
  have first : Linked [remarked] := Linked.nil.snoc (remarkedAt_eq 1 none).1
  obtain ⟨-, -, judged⟩ := any_log_judged (noonShowing wiped) (.startAt Clock.defaultStart) "L1"
  rw [wiped_entriesOf] at judged ⊢
  refine ⟨wiped_isReadable, first, wiped_unlinked, ?_⟩
  rcases judged wiped_isReadable with ⟨-, hl⟩ | ⟨xs, e, ys, expected, actual, hsplit, -, hb, hr⟩
  · exact absurd hl wiped_unlinked
  · -- the first row is sealed, so that the break is at the second
    cases xs with
    | nil =>
      obtain ⟨rfl, -⟩ := List.cons.inj hsplit
      exact absurd (remarkedAt_eq 1 none).1 hb.unsealed
    | cons x xs =>
      have he : e ∈ [{ remarkedAgain with hash := "" }] := by
        rw [(List.cons.inj hsplit).2]
        simp
      have seq : e.seq = 2 := by
        rw [List.mem_singleton.mp he]
        exact remarkedAt_seq 2 (some remarked.hash)
      rw [seq] at hr
      exact ⟨expected, actual, hr⟩

theorem noonShowing_unreadable (ho : e.loanId = "L1") (hp : e.prevHash = none) (hc : e.contentText? = .error err) :
    ¬ e.IsSealed none ∧
      (scope (AuditLog.verify "L1")).answer ((noonShowing [e]).prepared (.startAt Clock.defaultStart) .none) =
        .error (.content err) := by
  have payload : e.payloadHash? = .error err := by
    rw [Entry.payloadHash?, hc]
    rfl
  have entries : ((noonShowing [e]).prepared (.startAt Clock.defaultStart) .none).store.entriesOf "L1" = [e] :=
    noonShowing_entriesOf (List.forall_mem_singleton.mpr ho) (List.pairwise_singleton _ _)
  refine ⟨fun hs => ?_, ?_⟩
  · cases payload.symm.trans hs.payloadHash
  · rw [(verify_tells ⟨rfl, rfl, rfl⟩ "L1").1, entries, AuditLog.firstBreak?, AuditLog.checkEntry,
      if_neg (by simp [hp]), payload]
    rfl

/-- The only row of a log is not sealed, but names no tag, or has a number as attributes: verifying does not tell that
the log is broken there. -/
theorem unknown_tag_escapes :
    (¬ { remarked with event := "bogus" }.IsSealed none ∧
      (scope (AuditLog.verify "L1")).answer
        ((noonShowing [{ remarked with event := "bogus" }]).prepared (.startAt Clock.defaultStart) .none) =
          .error (.content (.unknownTag "bogus"))) ∧
      ¬ { remarked with attributes := .int 5 }.IsSealed none ∧
      (scope (AuditLog.verify "L1")).answer
        ((noonShowing [{ remarked with attributes := .int 5 }]).prepared (.startAt Clock.defaultStart) .none) =
          .error (.content (.attributes (.notIterable "int"))) := by
  obtain ⟨hs, payloadHash, hash, he⟩ := remarkedAt_eq 1 none
  have ofLoan : remarked.loanId = "L1" := remarkedAt_loanId 1 none
  have unknown : { remarked with event := "bogus" }.contentText? = .error (.unknownTag "bogus") :=
    Entry.contentText?_of_unknown (by decide)
  have number : { remarked with attributes := .int 5 }.contentText? = .error (.attributes (.notIterable "int")) := by
    rw [remarked, he]
    rfl
  exact ⟨noonShowing_unreadable ofLoan hs.prevHash unknown, noonShowing_unreadable ofLoan hs.prevHash number⟩

end LoanLedger.Ledger
