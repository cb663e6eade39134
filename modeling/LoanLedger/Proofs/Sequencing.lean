import LoanLedger.Proofs.Chain
import LoanLedger.Proofs.Duplicates
import LoanLedger.Proofs.Turns

/-!
# Numbering and chaining in every run

* `Block.Appends` : a caller who appends entries with JSON attributes, goes on after an entry that was
  accepted or rejected as a duplicate, and gives up when an append fails in any other way;
* `Turn.Logs` : a call of an engine, or such a block in a transaction of its own, disturbed in any way;
* `Sequenced t loanId` : the log of a loan is numbered from 1 on in the order of commitment, its counter
  holds its length, every entry is linked to the one before, and the chain is verified as it reads back;
* `logs_sequenced` : so it is for every loan after every run, rejected and rolled back entries take no
  number, and committed entries stay in front of later ones.
-/

namespace LoanLedger

open Ledger Engine

/-! ## Turns -/

/-- No fault pretends that a transition was recorded before. -/
def Disturbance.IsFrank (x : Disturbance) : Prop :=
  ∀ p n e, (p, Effect.fail n e) ∈ x.faults.map Fault.plan → e.isDuplicate = false

/-- A caller who appends: what was accepted or rejected as a duplicate is followed by more, and after any
other failure the caller gives up. -/
inductive Ledger.Block.Appends : Block Unit → Prop where
  | done (u : Unit) : Appends (.done u)
  | fail (e : Ledger.Error) : Appends (.fail e)
  | append (loanId : String) (r : AuditRecord) (next : Except Ledger.Error (Option Entry) → Block Unit) :
    r.IsJson → (∀ o, Appends (next (.ok o))) → (∀ e, e.isDuplicate = true → Appends (next (.error e))) →
    (∀ e, e.isDuplicate = false → ∃ e', next (.error e) = .fail e') → Appends (.step (.append loanId r) next)

/-- A call of an engine, or a block of appended entries in a transaction of its own. -/
inductive Turn.Logs : Turn → Prop where
  | call {clock : Clock} {x : Disturbance} {g : Engine} {c : Call} :
    x.IsHonest → Logs ⟨clock, x, .call g c⟩
  | block {clock : Clock} {x : Disturbance} {b : Block Unit} :
    x.IsHonest → x.IsFrank → b.Appends → Logs ⟨clock, x, .block b⟩

theorem Turn.Logs.isHonest {y : Turn} (h : y.Logs) : y.disturbance.IsHonest := by
  cases h with
  | call hh => exact hh
  | block hh _ _ => exact hh

namespace Ledger

variable {d d' : Desk} {t t' : Tables} {loanId : String}

/-! ## Entries stay -/

/-- The entries are there still, in front of later ones. -/
def Keeping (t t' : Tables) : Prop := t.entries <+: t'.entries

theorem Appended.keeping {r : AuditRecord} {e : Entry} (h : Appended loanId r t e t') : Keeping t t' := by
  rw [h.tables]
  exact List.prefix_append _ _

theorem Keeping.of_entries (h : t'.entries = t.entries) : Keeping t t' := by
  unfold Keeping
  simp only [h, List.prefix_rfl]

theorem Remarked.keeping (h : Remarked loanId t t') : Keeping t t' := by
  induction h with
  | same hs => exact .of_entries hs.entries
  | append _ _ ha hs ih => exact (List.IsPrefix.trans ih ha.keeping).trans (Keeping.of_entries hs.entries)

theorem told_keeping {g : Engine} {c : Call} {a : Answer} (h : g.Told t c a t') : Keeping t t' := by
  cases h with
  | opened _ ha => exact ha.keeping
  | ignored _ _ _ ha => exact ha.keeping
  | applied _ _ _ hr hm ha => exact (hr.keeping.trans (Keeping.of_entries hm.entries)).trans ha.keeping
  | paid _ hr => exact hr.keeping

/-! ## Blocks and turns -/

/-- Appended entries keep logs numbered and chained, and those from before in front. -/
theorem appends_chained {b : Block Unit} (hb : b.Appends) : ∀ {d d' : Desk} {u : Unit}, d.IsFrank →
    Chained d.session.tables → b.run d = .ok u d' →
      Chained d'.session.tables ∧ Keeping d.session.tables d'.session.tables := by
  induction hb with
  | done u =>
    intro d d' _ _ hc h
    cases h
    exact ⟨hc, .of_entries rfl⟩
  | fail e =>
    intro d d' _ _ _ h
    cases h
  | append loanId r next hr _ _ hfail ihok ihdup =>
    intro d d' u hd hc h
    obtain ⟨res, d₁, hx, h₁⟩ := Work.bind_ok h
    rcases Work.attempt_ok hx with ⟨o, rfl, hx'⟩ | ⟨e, rfl, hx'⟩
    · have near : d.Near d₁ := Keeps.ok (R := Desk.Near) (x := AuditLog.append loanId r) hx'
      rcases AuditLog.append_ok hr hx' with ⟨-, hs, -⟩ | ⟨e, -, ha⟩
      · rw [← hs] at hc ⊢
        exact ihok o (near.isFrank hd) hc h₁
      · obtain ⟨hc', hk⟩ := ihok o (near.isFrank hd) (hc.appended ha) h₁
        exact ⟨hc', ha.keeping.trans hk⟩
    · have near : d.Near d₁ := Keeps.error (R := Desk.Near) (x := AuditLog.append loanId r) hx'
      cases he : e.isDuplicate with
      | true =>
        have hs := AuditLog.append_duplicate hd hx' he
        rw [← hs] at hc ⊢
        exact ihdup e he (near.isFrank hd) hc h₁
      | false =>
        obtain ⟨e', hn⟩ := hfail e he
        rw [hn] at h₁
        cases h₁

theorem Desk.Begun.isFrank {d₀ : Desk} (h : d.Begun d₀) (hd : d.IsFrank) : d₀.IsFrank := by
  intro p n e hn
  rw [h.plan] at hn
  exact hd p n e hn

/-- What a turn commits keeps logs numbered and chained, and those from before in front. -/
theorem turn_chained {x : Turn} (hx : x.Logs) (hc : Chained d.store) :
    Chained (d.turn x).store ∧ Keeping d.store (d.turn x).store := by
  cases hx with
  | call hh =>
    rcases call_turn hh with h | ⟨a, ht⟩
    · rw [h]
      exact ⟨hc, .of_entries rfl⟩
    · exact ⟨hc.told ht, told_keeping ht⟩
  | @block clock x b hh hf hb =>
    unfold Desk.turn Job.run
    rcases (scope_settled b (d := d.prepared clock x) hh).store with h | ⟨d₀, a, d₁, hb₀, hw, h⟩
    · rw [h]
      exact ⟨hc, .of_entries rfl⟩
    · obtain ⟨u, hr, -⟩ := Work.map_ok hw
      have hs := appends_chained hb (hb₀.isFrank hf) (by rw [hb₀.session]; exact hc) hr
      rw [hb₀.session] at hs
      rw [h]
      exact hs

/-! ## Verifying -/

theorem verify_sound (hd : d.IsReady) (hk : d.session.known.entries = [])
    (h : AuditLog.firstBreak? none (d.session.tables.entriesOf loanId) = .ok none) :
    AuditLog.verify loanId d = .ok () d := by
  unfold AuditLog.verify
  rw [Work.bind_of_ok (guarded_of_ok (ask_calm hd hk (·.entriesOf loanId))), h]
  rfl

theorem verify_calm (hd : d.IsReady) (hk : d.session.known.entries = [])
    (hc : Chain (d.session.tables.logOf loanId)) : AuditLog.verify loanId d = .ok () d :=
  verify_sound hd hk (by rw [entriesOf_eq hc]; exact hc.sound)

/-! ## Runs -/

/-- The log of a loan is numbered from 1 on in the order of commitment, its counter holds its length, every
entry is linked to the one before, and the log is verified as it reads back. -/
structure Sequenced (t : Tables) (loanId : String) : Prop where
  numbers : (t.logOf loanId).map (·.seq) = (List.range (t.logOf loanId).length).map fun i : Nat => (i : Int) + 1
  counter : t.counter? (Sequence.ofLoan loanId) =
    Counter.after (Sequence.ofLoan loanId) (t.logOf loanId).length
  links : ∀ i e, (t.logOf loanId)[i]? = some e →
    e.prevHash = if i = 0 then none else (t.logOf loanId)[i - 1]?.map (·.hash)
  verified : ∀ d : Desk, d.IsCalm → d.store = t → ∃ d', scope (AuditLog.verify loanId) d = .ok () d'

theorem Chained.sequenced (h : Chained t) (loanId : String) : Sequenced t loanId where
  numbers := (h.chain loanId).numbers
  counter := h.counter loanId
  links := (h.chain loanId).links
  verified d hd hs := by
    refine scope_calm fun log => ⟨_, verify_calm ⟨⟨hd.faults, hd.rival, hd.checks⟩, rfl⟩ rfl ?_, ?_⟩
    · rw [hs]
      exact h.chain loanId
    · exact ⟨⟨hd.faults, hd.rival, hd.checks⟩, rfl⟩

theorem after_chained {ts : List Turn} (hts : ∀ x ∈ ts, x.Logs) :
    ∀ {d : Desk}, Chained d.store → Chained (d.after ts).store := by
  induction ts with
  | nil => exact id
  | cons x ts ih =>
    intro d hc
    exact ih (fun y hy => hts y (List.mem_cons_of_mem _ hy)) (turn_chained (hts x List.mem_cons_self) hc).1

/-- In every run of calls and of appended entries, disturbed in any way, the log of every loan is numbered
and chained; later entries come behind earlier ones; and an entry that is rejected as a duplicate or
taken back takes no number. -/
theorem logs_sequenced (d : Desk) (ts : List Turn) (hd : d.store = .empty) (hts : ∀ x ∈ ts, x.Logs) :
    (∀ loanId, Sequenced (d.after ts).store loanId) ∧
    (∀ x : Turn, x.Logs → (d.after ts).store.entries <+: ((d.after ts).turn x).store.entries) ∧
    (∀ (d₁ d₂ : Desk) (loanId : String) (r : AuditRecord) (e : Error), d₁.IsFrank →
      AuditLog.append loanId r d₁ = .error e d₂ → e.isDuplicate = true →
        d₂.session.tables = d₁.session.tables) ∧
    (∀ (d₁ d₂ : Desk) (b : Block Unit) (e : Error), d₁.IsHonest → scope b.run d₁ = .error e d₂ →
      d₂.store = d₁.store) := by
  have hc : Chained (d.after ts).store := after_chained hts (hd ▸ chained_empty)
  refine ⟨hc.sequenced, fun x hx => (turn_chained hx hc).2, fun d₁ d₂ loanId r e hf h he => ?_,
    fun d₁ d₂ b e hh h => ?_⟩
  · exact AuditLog.append_duplicate hf h he
  · have hs := scope_settled b hh
    rw [h] at hs
    cases hs with
    | failed hs => exact hs

/-- A remark under a key. -/
def remark : AuditRecord where
  timestamp := Clock.defaultStart
  actor := systemActor
  event := .ignoredEvent
  details := ""
  attributes := [(.text "state", .text "open")]
  key := some "L1:1"

/-- What follows an entry that is accepted or rejected as a duplicate. -/
def unlessFailed (next : Block Unit) : Except Error (Option Entry) → Block Unit
  | .error e => if e.isDuplicate then next else .fail e
  | .ok _ => next

theorem appends_step {r : AuditRecord} {next : Block Unit} (hr : r.IsJson) (hn : next.Appends) :
    (Block.step (.append loanId r) (unlessFailed next)).Appends := by
  refine .append loanId r _ hr (fun _ => hn) (fun e he => ?_) fun e he => ⟨e, ?_⟩
  · rw [unlessFailed, if_pos he]
    exact hn
  · rw [unlessFailed, he, if_neg (by decide)]

/-- The remark, and the same once more. -/
def remarks : Block Unit :=
  .step (.append "L1" remark) (unlessFailed (.step (.append "L1" remark) (unlessFailed (.done ()))))

theorem remarks_appends : remarks.Appends := by
  have hr : remark.IsJson := by simp [AuditRecord.IsJson, remark, Value.IsJson, Value.IsRecord]
  exact appends_step hr (appends_step hr (.done ()))

/-- A loan is opened during an outage and once more after it, and remarks are made. -/
def openedAndRemarked : List Turn :=
  [⟨noon.clock, outage, .call still (.open_ "L1" "F1" systemActor)⟩,
    ⟨noon.clock, .none, .call still (.open_ "L1" "F1" systemActor)⟩, ⟨noon.clock, .none, .block remarks⟩]

theorem openedAndRemarked_logs : ∀ x ∈ openedAndRemarked, x.Logs := by
  intro x hx
  simp only [openedAndRemarked, List.mem_cons, List.not_mem_nil, or_false] at hx
  rcases hx with rfl | rfl | rfl
  · exact .call (outage_isHonest (d := noon))
  · exact .call Disturbance.none_isHonest
  · exact .block Disturbance.none_isHonest (fun _ _ _ h => by cases h) remarks_appends

theorem logs_sequenced_at_noon :
    noon.store = .empty ∧ (∀ x ∈ openedAndRemarked, x.Logs) ∧
      ∀ loanId, Sequenced (noon.after openedAndRemarked).store loanId :=
  ⟨rfl, openedAndRemarked_logs, (logs_sequenced noon openedAndRemarked rfl openedAndRemarked_logs).1⟩

end Ledger

end LoanLedger
