import LoanLedger.Event.Reader
import LoanLedger.Proofs.Keys
import LoanLedger.Proofs.Once
import LoanLedger.Proofs.Rejected

/-!
# Events under the same key

* `Event.IsUncut e` : there is no colon in the loan and the type of `e`, so that its key tells them;
* `applies_of_entry` : whatever is recorded under a key in a run, is there since an event with that key was
  applied;
* `duplicate_iff_key_applied` : so an event is answered as a duplicate exactly when an event with its key was
  applied before: the same one, unless there are colons in loans or types;
* `keys_collide` : with colons in them an event can be dropped that was never applied, for one of another loan.
-/

namespace LoanLedger

def Event.IsUncut (e : Event) : Prop := ':' ∉ e.loanId.toList ∧ ':' ∉ e.type.toList

namespace Engine

open Ledger Workflow

variable {t t' : Tables} {loanId key : String} {entry : Entry} {g : Engine} {c : Call} {x : Answer} {e e' : Event}
  {a b : String} {d : Desk} {ts : List Turn} {clock : Clock}

/-! ## Where keys come from -/

theorem mem_appended {r : AuditRecord} {new : Entry} (h : Appended loanId r t new t') (he : entry ∈ t'.entries) :
    entry ∈ t.entries ∨ entry = new := by
  rw [h.tables] at he
  exact (List.mem_append.mp he).imp_right List.mem_singleton.mp

theorem mem_remarked (h : Remarked loanId t t') (he : entry ∈ t'.entries) (hk : entry.key = some key) :
    entry ∈ t.entries := by
  induction h with
  | same hs => exact hs.entries ▸ he
  | append _ hp ha hs ih =>
    rcases mem_appended ha (hs.entries ▸ he) with he | rfl
    · exact ih he
    · rw [ha.key, hp.noKey] at hk
      cases hk

/-- An entry under a key was there before the call, or the call is an event with that key that is applied. -/
theorem Told.mem_entries (h : g.Told t c x t') (he : entry ∈ t'.entries) (hk : entry.key = some key) :
    entry ∈ t.entries ∨ ∃ e a b rs, c = .handle e ∧ x = .handled (Outcome.of e (.applied a b rs)) ∧
      e.key = key := by
  have unkeyed {r : AuditRecord} {loanId : String} {t₁ : Tables} {new : Entry} (ha : Appended loanId r t₁ new t')
      (hr : r.key = none) : entry ∈ t₁.entries := by
    rcases mem_appended ha he with he | rfl
    · exact he
    · rw [ha.key, hr] at hk
      cases hk
  cases h with
  | opened _ ha =>
    have before := unkeyed ha rfl
    exact .inl before
  | ignored _ _ _ ha => exact .inl (unkeyed ha rfl)
  | applied _ _ _ hr hm ha =>
    rcases mem_appended ha he with he | rfl
    · exact .inl (mem_remarked hr (hm.entries ▸ he) hk)
    · exact .inr ⟨_, _, _, _, rfl, rfl, Option.some.inj (ha.key.symm.trans hk)⟩
  | paid _ hr => exact .inl (mem_remarked hr he hk)

theorem mem_turn {y : Turn} (hy : y.IsCall) (hk : entry.key = some key) (he : entry ∈ (d.turn y).store.entries) :
    entry ∈ d.store.entries ∨ ∃ g e a b, (∀ ts, Applies g e a b d (y :: ts)) ∧ e.key = key := by
  cases hy with
  | @call clock z g c hz =>
    have served := serve_served (d := d.prepared clock z) g c hz
    rw [turn_call] at he
    generalize hr : g.serve c (d.prepared clock z) = r at served
    cases served with
    | failed hs =>
      rw [Work.desk_of_error hr, hs] at he
      exact .inl he
    | duplicate _ hs =>
      rw [Work.desk_of_ok hr, hs] at he
      exact .inl he
    | told _ ht =>
      rw [Work.desk_of_ok hr] at he
      rcases ht.mem_entries he hk with he | ⟨e, a, b, rs, rfl, rfl, hkey⟩
      · exact .inl he
      · obtain ⟨o, handled, ho⟩ := Work.map_ok hr
        cases ho
        exact .inr ⟨g, e, a, b, fun ts => .now (by rw [Work.answer, handled]), hkey⟩

/-- What is recorded under a key in a run, is there since an event with that key was applied. -/
theorem applies_of_entry (hts : ∀ y ∈ ts, y.IsCall) (hk : entry.key = some key) : ∀ {d : Desk},
    entry ∈ (d.after ts).store.entries →
      entry ∈ d.store.entries ∨ ∃ g e a b, Applies g e a b d ts ∧ e.key = key := by
  induction ts with
  | nil => exact fun he => .inl he
  | cons y ts ih =>
    intro d he
    rcases ih (fun z hz => hts z (List.mem_cons_of_mem _ hz)) (d := d.turn y) he with he | ⟨g, e, a, b, happ, hkey⟩
    · exact (mem_turn (hts y List.mem_cons_self) hk he).imp_right fun ⟨g, e, a, b, happ, hkey⟩ =>
        ⟨g, e, a, b, happ ts, hkey⟩
    · exact .inr ⟨g, e, a, b, .later happ, hkey⟩

/-! ## Duplicates -/

/-- An event is answered as a duplicate exactly when an event with its key was applied before. In a run of
calls, however they were disturbed, an answer that tells of a duplicate means that an event with the key was
applied: the same event, if there are no colons in the loans and types. And on an open loan in a declared
state, where nothing disturbs it, every event with the key of one that was applied is answered by the move of
that one, and the rows stay. -/
theorem duplicate_iff_key_applied (d : Desk) (ts : List Turn) (hd : d.IsNew) (hts : ∀ y ∈ ts, y.IsCall) :
    (∀ (g : Engine) (e : Event) (clock : Clock) (z : Disturbance) (o : Outcome), z.IsHonest → z.IsFrank →
      (g.handle e).answer ((d.after ts).prepared clock z) = .ok o → o.decision.isDuplicate = true →
        ∃ g' e' a b, Applies g' e' a b d ts ∧ e'.key = e.key ∧
          (e'.IsUncut → e.IsUncut → e'.loanId = e.loanId ∧ e'.type = e.type ∧ e'.identity = e.identity)) ∧
    ∀ (g g' : Engine) (e e' : Event) (a b : String) (clock : Clock) (l : Loan) (p : Patience),
      Applies g' e' a b d ts → e'.key = e.key → (d.after ts).store.loan? e.loanId = some l →
        (g.definition.find? l.state).isSome → Patience.ofValue? g.lockTimeout = .ok p →
          ∃ d', g.handle e ((d.after ts).prepared clock .none) =
              .ok ⟨e.loanId, e.type, e.key, .duplicate (.text a) (.text b)⟩ d' ∧
            d'.store = (d.after ts).store := by
  refine ⟨fun g e clock z o hz hz' h ho => ?_, fun g g' e e' a b clock l p happ hkey hl hs hp => ?_⟩
  · obtain ⟨d', hr⟩ := Work.ok_of_answer h
    obtain ⟨entry, hentry⟩ := handle_taken (d := (d.after ts).prepared clock z) hz hz' hr ho
    have keyed : entry.key = some e.key := by simpa using List.find?_some hentry
    rcases applies_of_entry hts keyed (List.mem_of_find?_eq_some hentry) with he | ⟨g', e', a, b, happ, hkey⟩
    · rw [hd.store] at he
      cases he
    · exact ⟨g', e', a, b, happ, hkey, fun h' h => Key.join_inj h'.1 h'.2 h.1 h.2 hkey⟩
  · obtain ⟨-, entry, hentry, hmove⟩ := happ.recorded hts
    have recorded : Recorded (d.after ts).store e a b := ⟨⟨l, hl⟩, entry, hkey ▸ hentry, hmove⟩
    refine Recorded.answered (d := (d.after ts).prepared clock .none) recorded (fun l' hl' => ?_) ⟨rfl, rfl, rfl⟩ ?_
    · cases hl.symm.trans hl'
      exact hs
    · change (Locks.hold (d.after ts).locks e.loanId g.lockTimeout).2 = .ok ()
      rw [after_locks hts, hd.locks]
      exact Locks.hold_empty hp e.loanId

/-! ## A collision -/

/-- An engine under a definition with two ways that lead back. -/
def branching : Engine where
  definition :=
    ⟨"branching", 1, "open", [⟨"open", [⟨"B:C", "open", []⟩, ⟨"C", "open", []⟩], ""⟩], "", ""⟩
  dispatcher := .standard
  lockTimeout := .null

/-- An event of the loan `A`. -/
def shortLoan : Event where
  type := "B:C"
  loanId := "A"
  founderId := "F1"
  occurredAt := Clock.defaultStart
  payload := []
  actor := systemActor
  eventId := some "1"
  isAware := defaultStart_isAware

/-- An event of the loan `A:B` with the same key. -/
def longLoan : Event where
  type := "C"
  loanId := "A:B"
  founderId := "F1"
  occurredAt := Clock.defaultStart
  payload := []
  actor := systemActor
  eventId := some "1"
  isAware := defaultStart_isAware

/-- Both loans are opened, and the event of the shorter one moves it. -/
def bothOpened : List Turn :=
  [⟨noon.clock, .none, .call branching (.open_ "A" "F1" systemActor)⟩,
    ⟨noon.clock, .none, .call branching (.open_ "A:B" "F1" systemActor)⟩,
    ⟨noon.clock, .none, .call branching (.handle shortLoan)⟩]

theorem bothOpened_isCall : ∀ y ∈ bothOpened, y.IsCall := by
  intro y hy
  simp only [bothOpened, List.mem_cons, List.not_mem_nil, or_false] at hy
  rcases hy with rfl | rfl | rfl <;> exact .call Disturbance.none_isHonest

theorem bothOpened_applies (h : Applies g e a b d bothOpened) : e = shortLoan := by
  obtain ⟨clock, z, hy⟩ := h.mem
  simp only [bothOpened, List.mem_cons, List.not_mem_nil, or_false] at hy
  rcases hy with hy | hy | hy <;> cases hy
  rfl

theorem duplicate_of_reply (h : Reply.of? ((g.serve (.handle e)).answer d) = some (.duplicate a b)) :
    ∃ o, (g.handle e).answer d = .ok o ∧ o.decision.isDuplicate = true := by
  cases hr : g.handle e d with
  | error err d' =>
    rw [Work.answer, show g.serve (.handle e) d = .error err d' from Work.map_of_error hr] at h
    obtain ⟨k, -, hk⟩ := Option.map_eq_some_iff.mp h
    cases hk
  | ok o d' =>
    rw [Work.answer, show g.serve (.handle e) d = .ok (.handled o) d' from Work.map_of_ok hr] at h
    refine ⟨o, by rw [Work.answer, hr], ?_⟩
    obtain ⟨_, _, _, c⟩ := o
    cases c with
    | duplicate => rfl
    | _ => cases h

/-- The event of the longer loan is answered as a duplicate then. -/
theorem longLoan_answered : Applies branching shortLoan "open" "open" noon bothOpened ∧
    (∃ l, (noon.after bothOpened).store.loan? "A:B" = some l ∧ l.state = "open") ∧
    ∃ o, (branching.handle longLoan).answer ((noon.after bothOpened).prepared noon.clock .none) = .ok o ∧
      o.decision.isDuplicate = true := by
  have start : IsOpen noon (4 * (mostActions branching.definition + 1)) :=
    isOpen_of_isNew ⟨rfl, rfl⟩ (IdSupply.numbered_isFresh 0) (by decide)
  have sound : branching.IsSound := ⟨by decide, _, rfl⟩
  have timely : ∀ x ∈ [(noon.clock, Call.open_ "A" "F1" systemActor), (noon.clock, .open_ "A:B" "F1" systemActor),
      (noon.clock, .handle shortLoan), (noon.clock, .handle longLoan)], x.1.IsTimely ∧ x.2.IsTimely := by
    intro x hx
    simp only [List.mem_cons, List.not_mem_nil, or_false] at hx
    rcases hx with rfl | rfl | rfl | rfl
    · exact ⟨noon_isTimely, trivial⟩
    · exact ⟨noon_isTimely, trivial⟩
    · exact ⟨noon_isTimely, Clock.defaultStart, rfl⟩
    · exact ⟨noon_isTimely, Clock.defaultStart, rfl⟩
  obtain ⟨-, r₁, m₁, -, h₁, -, r₂, m₂, -, h₂, -, r₃, m₃, hr₃, h₃, hm, r₄, m₄,
      hr₄, h₄, -⟩ :=
    IsOpen.follows sound timely start
  -- the machine opens both loans, moves the shorter one, and finds the key of the other event
  obtain ⟨-, rfl⟩ := Prod.mk.inj (List.mem_singleton.mp h₁)
  have unopened : (Machine.empty.put "A" "open").state? "A:B" = none := by simp [Machine.put, Machine.empty]
  obtain ⟨-, rfl⟩ : r₂ = .opened ∧ m₂ = (Machine.empty.put "A" "open").put "A:B" "open" := by
    have h₂ : (r₂, m₂) ∈ (Machine.empty.put "A" "open").step branching.definition
        (.open_ "A:B" "F1" systemActor) := h₂
    rw [Machine.step, unopened] at h₂
    exact Prod.mk.inj (List.mem_singleton.mp h₂)
  have short : ((Machine.empty.put "A" "open").put "A:B" "open").state? "A" = some "open" := by
    simp [Machine.put, Machine.empty]
  obtain ⟨rfl, rfl⟩ := Prod.mk.inj ((List.mem_singleton.mp h₃).trans
    (Machine.handle_applied (x := branching.definition) (e := shortLoan) short rfl rfl rfl))
  have long : ((((Machine.empty.put "A" "open").put "A:B" "open").put "A" "open").record shortLoan.key
      ("open", "open")).state? longLoan.loanId = some "open" := by
    simp [Machine.put, Machine.record, longLoan]
  have found : ((((Machine.empty.put "A" "open").put "A:B" "open").put "A" "open").record shortLoan.key
      ("open", "open")).move? longLoan.key = some ("open", "open") := by
    have same : longLoan.key = shortLoan.key := rfl
    simp [Machine.record, same]
  have recorded := Machine.handle_recorded (x := branching.definition) long rfl found
  obtain ⟨rfl, -⟩ := Prod.mk.inj ((List.mem_singleton.mp h₄).trans recorded)
  rw [← turn_call, ← turn_call] at hr₃
  rw [← turn_call, ← turn_call, ← turn_call] at hr₄ hm
  obtain ⟨rs, hrs⟩ := answer_of_reply (fun _ _ h => by cases h) hr₃
  rw [bothOpened, Desk.after, List.foldl_cons, List.foldl_cons, List.foldl_cons, List.foldl_nil]
  refine ⟨.later (.later (.now hrs)), ?_, duplicate_of_reply hr₄⟩
  have state := (congrArg (·.state? "A:B") hm).trans long
  rw [Machine.of_state?, Option.map_eq_some_iff] at state
  exact state

theorem duplicate_iff_key_applied_at_noon :
    noon.IsNew ∧ (∀ y ∈ bothOpened, y.IsCall) ∧
      (∃ g' e' a b, Applies g' e' a b noon bothOpened ∧ e'.key = longLoan.key) ∧
      ∃ d', branching.handle longLoan ((noon.after bothOpened).prepared noon.clock .none) =
          .ok ⟨"A:B", "C", "A:B:C:1", .duplicate (.text "open") (.text "open")⟩ d' ∧
        d'.store = (noon.after bothOpened).store := by
  have both := duplicate_iff_key_applied noon bothOpened ⟨rfl, rfl⟩ bothOpened_isCall
  obtain ⟨happ, ⟨l, hl, hs⟩, o, ho, hdup⟩ := longLoan_answered
  obtain ⟨g', e', a, b, happ', hkey, -⟩ := both.1 branching longLoan noon.clock .none o Disturbance.none_isHonest
    (fun _ _ _ h => by cases h) ho hdup
  refine ⟨⟨rfl, rfl⟩, bothOpened_isCall, ⟨g', e', a, b, happ', hkey⟩, ?_⟩
  exact both.2 branching branching longLoan shortLoan "open" "open" noon.clock l _ happ rfl hl (by rw [hs]; rfl) rfl

theorem shortLoan_isRead : Event.ofEntries? [(.text "type", .text "B:C"), (.text "loan_id", .text "A"),
    (.text "founder_id", .text "F1"), (.text "event_id", .text "1")] noon.clock = .ok shortLoan := by
  rfl

theorem longLoan_isRead : Event.ofEntries? [(.text "type", .text "C"), (.text "loan_id", .text "A:B"),
    (.text "founder_id", .text "F1"), (.text "event_id", .text "1")] noon.clock = .ok longLoan := by
  rfl

/-- An event can be answered as a duplicate though it was never applied: events that are read of two loans
have the same key, and the first of them that is applied takes it from the other. -/
theorem keys_collide :
    (∃ es, Event.ofEntries? es noon.clock = .ok shortLoan) ∧
    (∃ es, Event.ofEntries? es noon.clock = .ok longLoan) ∧
    ¬ ∀ (d : Desk) (ts : List Turn) (g : Engine) (e : Event) (clock : Clock) (o : Outcome), d.IsNew →
      (∀ y ∈ ts, y.IsCall) → (g.handle e).answer ((d.after ts).prepared clock .none) = .ok o →
        o.decision.isDuplicate = true → ∃ g' e' a b, Applies g' e' a b d ts ∧
          e'.loanId = e.loanId ∧ e'.type = e.type ∧ e'.identity = e.identity := by
  refine ⟨⟨_, shortLoan_isRead⟩, ⟨_, longLoan_isRead⟩, fun h => ?_⟩
  obtain ⟨-, -, o, ho, hdup⟩ := longLoan_answered
  obtain ⟨g', e', a, b, happ, hloan, -⟩ := h noon bothOpened branching longLoan noon.clock o ⟨rfl, rfl⟩
    bothOpened_isCall ho hdup
  rw [bothOpened_applies happ] at hloan
  exact absurd hloan (by decide)

end Engine

end LoanLedger
