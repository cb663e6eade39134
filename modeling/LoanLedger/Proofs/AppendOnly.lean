import LoanLedger.Proofs.Answered
import LoanLedger.Proofs.Rising

/-!
# Logs are append only

* `b.Reaches d o d'` : the block `b`, begun at the desk `d`, comes to the operation `o` at the desk `d'`;
* `o.Attempts loanId seq reason` : the operation is an attempt to change or remove an audit entry that the session
  loads, which is refused for that reason; `attempt_refused` : it is refused while entries are guarded, and breaks the
  session;
* `scope_broken` : a transaction whose session was broken once is taken back as a whole;
* `Tampering.Bulk.scope_run` : one statement for many entries is not refused, guarded or not;
* `logs_append_only` : in every ledger that can come about, every turn and every operation within a transaction leaves
  each log as a prefix of the log afterwards, and a transaction with an attempt on a loaded entry changes nothing, while
  statements for many entries change and remove rows; `log_rewritten` : so a guarded log can be rewritten.
-/

namespace LoanLedger.Ledger

open Engine

variable {α β γ : Type} {b : Block α} {o : Op β} {d d' d₁ : Desk} {e : Error}

/-! ## What a block comes to -/

/-- The block, begun at a desk, comes to an operation at another one. -/
inductive Block.Reaches : Block α → Desk → Op β → Desk → Prop where
  | here {o : Op β} {next : Except Error β → Block α} {d : Desk} : Reaches (.step o next) d o d
  | later {γ : Type} {o' : Op γ} {next : Except Error γ → Block α} {o : Op β} {d d' : Desk} :
    Reaches (next (o'.run.answer d)) (o'.run.desk d) o d' → Reaches (.step o' next) d o d'

theorem desk_step {γ : Type} (o : Op γ) (next : Except Error γ → Block α) (d : Desk) :
    (Block.step o next).run.desk d = (next (o.run.answer d)).run.desk (o.run.desk d) := by
  change (Work.attempt o.run >>= fun r => (next r).run).desk d = _
  cases h : o.run d with
  | ok a d₁ =>
    rw [Work.desk_bind_of_ok (Work.attempt_of_ok h), Work.desk_of_ok h, Work.answer_of_ok h]
  | error x d₁ =>
    rw [Work.desk_bind_of_ok (Work.attempt_of_error h), Work.desk_of_error h, Work.answer_of_error h]

/-- What every operation keeps holds between the start of a block and what it comes to. -/
theorem Block.Reaches.kept {R : Desk → Desk → Prop} [Frame R] (hR : ∀ {γ : Type} (o : Op γ), Keeps R o.run)
    (h : b.Reaches d o d') : R d d' := by
  induction h with
  | here => exact Frame.refl _
  | later _ ih => exact Frame.trans ((hR _).holds _) ih

/-! ## Broken sessions -/

def Desk.StaysBroken (d d' : Desk) : Prop := d.session.isBroken = true → d'.session.isBroken = true

instance : Frame Desk.StaysBroken where
  refl _ := id
  trans h h' := h' ∘ h
  log _ _ := id
  pass _ _ := id
  know _ _ := id
  broken _ _ := rfl
  check _ _ _ := id
  back _ := id

instance : Issuing Desk.StaysBroken where
  freshId _ := id

instance : Ample (Kept Desk.StaysBroken) where
  setTables _ _ := id

theorem Block.Reaches.broken (h : b.Reaches d o d') (hb : (o.run.desk d').session.isBroken = true) :
    (b.run.desk d).session.isBroken = true := by
  induction h with
  | @here o next d =>
    rw [desk_step]
    exact (Holds.holds : Kept Desk.StaysBroken α (next _).run) _ hb
  | later _ ih =>
    rw [desk_step]
    exact ih hb

theorem commit_broken (hd : d.IsHonest) (hb : d.session.isBroken = true) : ∃ e d', commit d = .error e d' := by
  unfold commit
  rw [call_run]
  cases hv : (judge .commit d.faults).2 with
  | done =>
    refine ⟨.storage .abandoned, d.passed .commit, ?_⟩
    dsimp only
    rw [Work.bind_of_ok (Work.session_run _), show (d.passed .commit).session.isBroken = true from hb, if_pos rfl]
    rfl
  | missed => exact absurd hv (hd.not_missed rfl)
  | failed x => exact ⟨x, _, rfl⟩

/-- Work that breaks its session fails in the end, and is taken back as a whole. -/
theorem scope_broken {x : Work α} [Keeps Desk.Near x] (hd : d.IsHonest)
    (hb : (x.desk (start.desk d)).session.isBroken = true) :
    ∃ e d', scope x d = .error e d' ∧ d'.store = d.store := by
  obtain ⟨log, hs⟩ := start_run d
  have started : (start.desk d).store = d.store := by rw [Work.desk_of_ok hs]
  cases hx : x (start.desk d) with
  | error e d₁ =>
    have near : Desk.Near _ d₁ := Keeps.error hx
    obtain ⟨d', hr, hstore⟩ := scope_of_error hx
    exact ⟨e, d', hr, (hstore.trans near.store).trans started⟩
  | ok a d₁ =>
    rw [Work.desk_of_ok hx] at hb
    rw [Work.desk_of_ok hs] at hx
    have near : Desk.Near _ d₁ := Keeps.ok hx
    obtain ⟨e, d₂, hc⟩ := commit_broken (near.isHonest hd) hb
    unfold scope
    rw [Work.bind_of_ok hs, Work.bind_of_ok (Work.attempt_of_ok hx)]
    obtain ⟨d', hr, hstore⟩ := finish_of_refused (a := a) hc
    exact ⟨e, d', hr, (hstore.trans (commit_error hc)).trans near.store⟩

/-! ## Attempts -/

/-- The operation is an attempt to change or remove an audit entry that the session loads, which is refused for a
reason. -/
inductive Op.Attempts (loanId : String) (seq : Int) : {β : Type} → Op β → String → Prop where
  | edit (f : Tampering.Field) (v : Value) : Attempts loanId seq (.editEntry loanId seq f v)
      "Audit log entries are immutable and cannot be modified"
  | erase : Attempts loanId seq (.eraseEntry loanId seq) "Audit log entries cannot be deleted"

/-- While entries are guarded, an attempt on an entry that is there is refused, and breaks the session. -/
theorem attempt_refused {loanId reason : String} {seq : Int} {x : Entry} (hg : d.isGuarded = true)
    (ho : o.Attempts loanId seq reason) (hx : (Tampering.entryAt loanId seq).answer d = .ok x) :
    o.run.answer d = .error (.failure (.immutabilityViolation "AuditLogEntry" reason)) ∧
      (o.run.desk d).session.isBroken = true := by
  obtain ⟨d₁, hx⟩ := Work.ok_of_answer hx
  have near : d.Near d₁ := Keeps.ok hx
  have guarded := near.guarded.trans hg
  cases ho with
  | edit f v =>
    obtain ⟨log, hr⟩ := Tampering.guardEntry_run (if f = .loanId then v.label else x.loanId) "UPDATE"
      "Audit log entries are immutable and cannot be modified" guarded
    have run : Tampering.editEntry loanId seq f v d = .error _ _ := (Work.bind_of_ok hx).trans (Work.bind_of_error hr)
    exact ⟨Work.answer_of_error run, by rw [Op.run, Work.desk_of_error run]⟩
  | erase =>
    obtain ⟨log, hr⟩ := Tampering.guardEntry_run x.loanId "DELETE" "Audit log entries cannot be deleted" guarded
    have run : Tampering.eraseEntry loanId seq d = .error _ _ := (Work.bind_of_ok hx).trans (Work.bind_of_error hr)
    exact ⟨Work.answer_of_error run, by rw [Op.run, Work.desk_of_error run]⟩

/-! ## Statements for many entries -/

/-- Only one row has a place. -/
theorem filter_place {t : Tables} {x : Entry} (h : Ranked t) (hx : x ∈ t.entries) :
    t.entries.filter (fun y => y.loanId = x.loanId && y.seq = x.seq) = [x] := by
  have ascending := (h.rising x.loanId).ascending
  have found : x ∈ t.logOf x.loanId := List.mem_filter.mpr ⟨hx, decide_eq_true rfl⟩
  have ofLog : t.entries.filter (fun y => y.loanId = x.loanId && y.seq = x.seq) =
      (t.logOf x.loanId).filter (fun y => y.seq = x.seq) := by
    rw [Tables.logOf, List.filter_filter]
    exact List.filter_congr fun y _ => Bool.and_comm _ _
  rw [ofLog]
  obtain ⟨before, behind, hlog⟩ := List.append_of_mem found
  rw [hlog] at ascending ⊢
  obtain ⟨-, hbehind, hbefore⟩ := List.pairwise_append.mp ascending
  have none_before : before.filter (fun y => y.seq = x.seq) = [] := List.filter_eq_nil_iff.mpr fun y hy heq =>
    absurd (of_decide_eq_true heq) (Int.ne_of_lt (hbefore y hy x List.mem_cons_self))
  have none_behind : behind.filter (fun y => y.seq = x.seq) = [] := List.filter_eq_nil_iff.mpr fun y hy heq =>
    absurd (of_decide_eq_true heq).symm (Int.ne_of_lt ((List.pairwise_cons.mp hbehind).1 y hy))
  rw [List.filter_append, none_before, List.filter_cons_of_pos (by simp), none_behind, List.nil_append]

namespace Tampering.Bulk

variable {k : Bulk}

/-- The rows are those that the statement leaves, whether or not entries are guarded. -/
theorem run_calm {t : Tables} (hd : d.IsReady) (h : k.rows? d.session.tables = .ok t) :
    ∃ d', k.run d = .ok (d.session.tables.entries.countP k.selects) d' ∧ d'.IsReady ∧ d'.session.tables = t := by
  unfold run
  rw [Work.bind_of_ok (statement_calm hd), Work.bind_of_ok (Work.session_run d), h]
  exact ⟨_, rfl, ⟨⟨hd.faults, hd.rival, hd.checks⟩, hd.sound⟩, rfl⟩

theorem run_refused (hd : d.IsReady) (h : k.rows? d.session.tables = .error e) : k.run d = .error e d := by
  unfold run
  rw [Work.bind_of_ok (statement_calm hd), Work.bind_of_ok (Work.session_run d), h]
  rfl

/-- In a transaction of its own the statement is committed, unless rows do not go with each other. -/
theorem scope_run (hd : d.IsCalm) :
    (scope k.run).answer d = (k.rows? d.store).map (fun _ => d.store.entries.countP k.selects) ∧
      ((scope k.run).desk d).store = (k.rows? d.store).toOption.getD d.store := by
  obtain ⟨log, hs⟩ := start_run d
  have ready : Desk.IsReady { d with session := .of d.store, log } := ⟨⟨hd.faults, hd.rival, hd.checks⟩, rfl⟩
  cases h : k.rows? d.store with
  | ok t =>
    obtain ⟨d₁, hr, h₁, hrows⟩ := run_calm ready h
    obtain ⟨d', hscope, hstore⟩ := scope_of_ok (by rw [Work.desk_of_ok hs]; exact hr) h₁
    exact ⟨Work.answer_of_ok hscope, by rw [Work.desk_of_ok hscope, hstore, hrows]; rfl⟩
  | error e =>
    obtain ⟨d', hscope, hstore⟩ :=
      scope_of_error (x := k.run) (by rw [Work.desk_of_ok hs]; exact run_refused ready h)
    exact ⟨Work.answer_of_error hscope, by rw [Work.desk_of_error hscope, hstore]; rfl⟩

/-- A statement that is for one row does what a change behind the back of the ledger does. -/
theorem rows?_rewrite {p : Entry → Bool} {x : Entry} {t : Tables} (h : t.entries.filter p = [x])
    (f : Field) (v : Value) : (rewrite p f v).rows? t = replaced t x f v := by
  rw [rows?, h, List.foldlM_cons]
  exact bind_pure _

end Tampering.Bulk

/-! ## Runs -/

/-- Logs are append only. After any run of calls and blocks, however they were disturbed and whatever the callers made
of failures: every turn, and every operation within a transaction, leaves the log of each loan as a prefix of the log
afterwards, row by row. An attempt to change or remove an entry that is there is refused as a violation, and the
transaction fails and leaves all committed rows as they were, whatever else it has done or goes on to do. But one
statement that writes into all entries of some kind, or removes them, is not refused: its transaction is committed with
the rows that it leaves, and fails only where these do not go with each other. -/
theorem logs_append_only (d : Desk) (ts : List Turn) (hd : d.store = .empty) (hg : d.isGuarded = true)
    (hts : ∀ x ∈ ts, x.disturbance.IsHonest) :
    (∀ x : Turn, x.disturbance.IsHonest → ∀ loanId,
      (d.after ts).store.entriesOf loanId <+: ((d.after ts).turn x).store.entriesOf loanId) ∧
    (∀ (clock : Clock) (z : Disturbance) (b : Block Unit) (β : Type) (o : Op β) (d₁ : Desk), z.IsHonest →
      b.Reaches (start.desk ((d.after ts).prepared clock z)) o d₁ →
        (∀ loanId, d₁.session.tables.entriesOf loanId <+: (o.run.desk d₁).session.tables.entriesOf loanId) ∧
        ∀ loanId seq reason x, o.Attempts loanId seq reason → (Tampering.entryAt loanId seq).answer d₁ = .ok x →
          o.run.answer d₁ = .error (.failure (.immutabilityViolation "AuditLogEntry" reason)) ∧
          (∃ e d', scope b.run ((d.after ts).prepared clock z) = .error e d') ∧
          ((d.after ts).turn ⟨clock, z, .block b⟩).store = (d.after ts).store) ∧
    (∀ (clock : Clock) (k : Tampering.Bulk),
      (scope k.run).answer ((d.after ts).prepared clock .none) =
        (k.rows? (d.after ts).store).map (fun _ => (d.after ts).store.entries.countP k.selects) ∧
      ((scope k.run).desk ((d.after ts).prepared clock .none)).store =
        (k.rows? (d.after ts).store).toOption.getD (d.after ts).store) ∧
    (∀ clock p, ((scope (Tampering.Bulk.remove p).run).desk ((d.after ts).prepared clock .none)).store =
      { (d.after ts).store with entries := (d.after ts).store.entries.filter (!p ·) }) ∧
    ∀ x ∈ (d.after ts).store.entries, ∀ f v,
      (Tampering.Bulk.rewrite (fun y => y.loanId = x.loanId && y.seq = x.seq) f v).rows? (d.after ts).store =
        Tampering.replaced (d.after ts).store x f v := by
  obtain ⟨guarded, ranked⟩ := after_ranked hts hg (hd ▸ ranked_empty)
  refine ⟨fun x hx loanId => (turn_grows hx guarded).entriesOf ranked loanId, fun clock z b β o d₁ hz hreach => ?_,
    fun clock k => Tampering.Bulk.scope_run ⟨rfl, rfl, rfl⟩,
    fun clock p => (Tampering.Bulk.scope_run (k := .remove p) ⟨rfl, rfl, rfl⟩).2,
    fun x hx f v => Tampering.Bulk.rows?_rewrite (filter_place ranked hx) f v⟩
  obtain ⟨log, hs⟩ := start_run ((d.after ts).prepared clock z)
  have grown := hreach.kept (R := Desk.Grows) inferInstance
  rw [Work.desk_of_ok hs] at grown
  have guarded₁ : d₁.isGuarded = true := grown.guarded.trans guarded
  have ranked₁ : Ranked d₁.session.tables := (grown.rows guarded ranked).1
  refine ⟨fun loanId => ?_, fun loanId seq reason x ho hx => ?_⟩
  · have step : d₁.Grows (o.run.desk d₁) := (inferInstance : Keeps Desk.Grows o.run).holds d₁
    exact (step.rows guarded₁).entriesOf ranked₁ loanId
  · obtain ⟨refused, broken⟩ := attempt_refused guarded₁ ho hx
    obtain ⟨e, d', hscope, hstore⟩ :=
      scope_broken (x := b.run) (d := (d.after ts).prepared clock z) hz (hreach.broken broken)
    refine ⟨refused, ⟨e, d', hscope⟩, ?_⟩
    unfold Desk.turn Job.run
    rw [Work.desk_of_error hscope]
    exact hstore

/-! ## A forged entry -/

theorem openedAtNoon_honest : ∀ x ∈ openedAtNoon, x.disturbance.IsHonest := by
  intro x hx
  obtain rfl := List.mem_singleton.mp hx
  exact Disturbance.none_isHonest

/-- The ledger has one entry when its loan was opened. -/
theorem openedAtNoon_appended :
    ∃ l x time t, (noon.after openedAtNoon).store = ⟨[l], [x], [⟨Sequence.ofLoan "L1", 1⟩], []⟩ ∧
      Appended "L1" (Loans.openingRecord "F1" systemActor looping.definition time) t x
        (noon.after openedAtNoon).store ∧ x.seq = 1 := by
  rw [openedAtNoon, after_singleton]
  have called :
      (noon.turn ⟨noon.clock, .none, .call looping (.open_ "L1" "F1" systemActor)⟩).store = noon.store ∨ _ :=
    call_turn Disturbance.none_isHonest
  rcases called with h | ⟨a, ht⟩
  · -- otherwise no loan would be open
    have shows := openedAtNoon_shows.2
    rw [openedAtNoon, after_singleton, h] at shows
    cases congrArg (Machine.state? · "L1") shows
  · cases ht with
    | opened _ ha => exact ⟨_, _, _, _, by rw [ha.tables, Tables.logged, ha.ofLoan]; rfl, ha, ha.seq⟩

theorem openedAtNoon_store :
    ∃ l x, (noon.after openedAtNoon).store = ⟨[l], [x], [⟨Sequence.ofLoan "L1", 1⟩], []⟩ ∧
      x.loanId = "L1" ∧ x.seq = 1 := by
  obtain ⟨l, x, _, _, hstore, ha, hseq⟩ := openedAtNoon_appended
  exact ⟨l, x, hstore, ha.ofLoan, hseq⟩

theorem entryAt_calm {loanId : String} {seq : Int} {x : Entry} (hd : d.IsReady)
    (h : d.session.tables.entryAt? loanId seq = some x) : ∃ e, (Tampering.entryAt loanId seq).answer d = .ok e := by
  have asked : AuditLog.ask (fun t => (t.entryAt? loanId seq).toList) d =
      .ok [AuditLog.recalled d.session.known x] d := by
    unfold AuditLog.ask
    rw [Work.bind_of_ok (query_calm hd _), h]
    rfl
  exact ⟨_, by rw [Tampering.entryAt, Work.answer, Work.bind_of_ok asked]; rfl⟩

/-- A caller who draws a number, writes another actor into an entry, and ignores how that goes. -/
def forging : Block Unit :=
  .step (.nextNumber "n") fun _ => .step (.editEntry "L1" 1 .actor (.text "M1")) fun _ => .done ()

/-- Where the ledger has that entry, the caller comes to the forgery, and the entry is found. -/
theorem forging_reaches {l : Loan} {x : Entry} (hd : d.IsCalm)
    (hstore : d.store = ⟨[l], [x], [⟨Sequence.ofLoan "L1", 1⟩], []⟩) (hof : x.loanId = "L1")
    (hseq : x.seq = 1) :
    ∃ d₁ e, forging.Reaches (start.desk d) (.editEntry "L1" 1 .actor (.text "M1")) d₁ ∧
      (Tampering.entryAt "L1" 1).answer d₁ = .ok e := by
  obtain ⟨log, hs⟩ := start_run d
  have ready : Desk.IsReady { d with session := .of d.store, log } := ⟨⟨hd.faults, hd.rival, hd.checks⟩, rfl⟩
  have fits : Column.fitsInteger (d.store.nextNumber "n") = true := by
    have other : Sequence.ofLoan "L1" ≠ "n" := by decide
    rw [hstore]
    simp [Tables.nextNumber, Tables.counter?, other, Column.fitsInteger]
  -- the entry is there still when the number was drawn
  obtain ⟨n, d₁, hn, onward⟩ := Sequence.next_calm ready fits
  have there : d₁.session.tables.entryAt? "L1" 1 = some x := by
    rw [Tables.entryAt?, (Sequence.next_ok hn).2, Tables.counted_entries]
    change d.store.entries.find? _ = _
    rw [hstore]
    simp [hof, hseq]
  obtain ⟨e, he⟩ := entryAt_calm (onward.isReady ready) there
  refine ⟨d₁, e, ?_, he⟩
  rw [Work.desk_of_ok hs]
  refine .later ?_
  rw [show (Op.nextNumber "n").run.desk _ = d₁ from Work.desk_of_ok hn]
  exact .here

/-- The number that was drawn before the forgery is taken back with it. -/
theorem logs_append_only_at_noon :
    noon.store = .empty ∧ noon.isGuarded = true ∧ (∀ x ∈ openedAtNoon, x.disturbance.IsHonest) ∧
      ∃ d₁, forging.Reaches (start.desk ((noon.after openedAtNoon).prepared noon.clock .none))
          (.editEntry "L1" 1 .actor (.text "M1")) d₁ ∧
        (Op.run (.editEntry "L1" 1 .actor (.text "M1"))).answer d₁ = .error (.failure (.immutabilityViolation
          "AuditLogEntry" "Audit log entries are immutable and cannot be modified")) ∧
        ((noon.after openedAtNoon).turn ⟨noon.clock, .none, .block forging⟩).store =
          (noon.after openedAtNoon).store := by
  obtain ⟨l, x, hstore, hof, hseq⟩ := openedAtNoon_store
  have prepared (d : Desk) : (d.prepared noon.clock .none).store = d.store := rfl
  obtain ⟨d₁, e, reached, found⟩ := forging_reaches (d := (noon.after openedAtNoon).prepared noon.clock .none)
    ⟨rfl, rfl, rfl⟩ ((prepared _).trans hstore) hof hseq
  obtain ⟨refused, -, same⟩ :=
    ((logs_append_only noon openedAtNoon rfl rfl openedAtNoon_honest).2.1 noon.clock .none forging Unit _ d₁
      Disturbance.none_isHonest reached).2 "L1" 1 _ e (.edit .actor (.text "M1")) found
  exact ⟨rfl, rfl, openedAtNoon_honest, d₁, reached, refused, same⟩

/-- The details of the only entry, written anew, are stored. -/
theorem openedAtNoon_replaced : ∃ x, (noon.after openedAtNoon).store.entriesOf "L1" = [x] ∧
    (noon.after openedAtNoon).store.entries = [x] ∧ x.loanId = "L1" ∧ x.details ≠ "x" ∧
    Tampering.replaced (noon.after openedAtNoon).store x .details (.text "x") =
      .ok { (noon.after openedAtNoon).store with entries := [{ x with details := "x" }] } := by
  obtain ⟨l, x, time, t, hstore, ha, -⟩ := openedAtNoon_appended
  have writable : (Loans.openingRecord "F1" systemActor looping.definition time).IsWritable :=
    openingRecord_isWritable "F1" systemActor (x := looping.definition) (by decide) time
  have plain : { x with details := "x" }.IsPlain :=
    ⟨ha.isPlain.timestamp, ha.isPlain.recordedAt, ha.isPlain.attributes⟩
  have stored := Entry.stored?_ok plain ha.attributes writable
  have rising := (after_ranked openedAtNoon_honest (d := noon) rfl ranked_empty).2.rising "L1"
  have log : (noon.after openedAtNoon).store.entriesOf "L1" = [x] := by
    rw [entriesOf_of_rising rising, hstore, Tables.logOf, List.filter_cons_of_pos (by simpa using ha.ofLoan),
      List.filter_nil]
  have details : x.details = "Loan opened for founder F1 in state open (looping:v1)" := ha.details
  refine ⟨x, log, by rw [hstore], ha.ofLoan, by rw [details]; decide, ?_⟩
  rw [Tampering.replaced, show Tampering.put x .details (.text "x") = .ok { x with details := "x" } from rfl]
  dsimp only [bind, Except.bind]
  rw [stored, hstore]
  dsimp only
  rw [Tables.replaceEntry?, Tables.removeEntry, List.filter_cons_of_neg (by simp), List.filter_nil, if_neg (by
    simp [Tables.isTaken, Tables.entryAt?, Tables.entryByKey?])]
  simp only [Bool.and_self, decide_true, if_true, List.map_cons, List.map_nil]
  rfl

/-- A session writes other details into all entries by one statement. It is not refused, and the log is not what it
was. -/
theorem log_rewritten :
    noon.store = .empty ∧ noon.isGuarded = true ∧ (∀ x ∈ openedAtNoon, x.disturbance.IsHonest) ∧
      (scope (Tampering.Bulk.rewrite (fun _ => true) .details (.text "x")).run).answer
        ((noon.after openedAtNoon).prepared noon.clock .none) = .ok 1 ∧
      ¬ (noon.after openedAtNoon).store.entriesOf "L1" <+: ((scope (Tampering.Bulk.rewrite (fun _ => true) .details
        (.text "x")).run).desk ((noon.after openedAtNoon).prepared noon.clock .none)).store.entriesOf "L1" := by
  obtain ⟨x, hlog, hentries, hof, hdetails, hreplaced⟩ := openedAtNoon_replaced
  have rows : (Tampering.Bulk.rewrite (fun _ => true) .details (.text "x")).rows? (noon.after openedAtNoon).store =
      .ok { (noon.after openedAtNoon).store with entries := [{ x with details := "x" }] } := by
    rw [Tampering.Bulk.rows?_rewrite (x := x) (by rw [hentries]; rfl), hreplaced]
  obtain ⟨answer, store⟩ := Tampering.Bulk.scope_run (k := .rewrite (fun _ => true) .details (.text "x"))
    (d := (noon.after openedAtNoon).prepared noon.clock .none) ⟨rfl, rfl, rfl⟩
  have prepared (d : Desk) : (d.prepared noon.clock .none).store = d.store := rfl
  rw [prepared, rows] at answer store
  refine ⟨rfl, rfl, openedAtNoon_honest, answer.trans (by rw [hentries]; rfl), fun hprefix => hdetails ?_⟩
  have left (t : Tables) :
      { t with entries := [{ x with details := "x" }] }.entriesOf "L1" = [{ x with details := "x" }] := by
    rw [Tables.entriesOf, List.filter_cons_of_pos (by simpa using hof), List.filter_nil, List.mergeSort_singleton]
  rw [store, hlog] at hprefix
  have rewritten : [x] <+: [{ x with details := "x" }] := left (noon.after openedAtNoon).store ▸ hprefix
  have same := rewritten.eq_of_length rfl
  exact congrArg Entry.details (List.cons.inj same).1

end LoanLedger.Ledger
