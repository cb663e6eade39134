import LoanLedger.Proofs.AppendOnly
import LoanLedger.Proofs.Validity

/-!
# A valid definition is usable

* `Tables.IsFree t loanId` : nothing is known of the loan: it has neither a row nor a log;
* `Opened g loanId founderId t` : the rows show the loan in the initial state at version 1, and its log holds its
  opening;
* `valid_definition_opens` : where nothing disturbs the work, an engine opens every such loan under a valid definition
  whose version fits its column; where it does not fit, opening fails and commits nothing;
* `vast_isRefused` : so that a valid definition can be unusable.
-/

namespace LoanLedger

open Ledger Engine

/-! ## Loans that are not open -/

structure Ledger.Tables.IsFree (t : Tables) (loanId : String) : Prop where
  loan : t.loan? loanId = none
  log : t.logOf loanId = []

namespace Ledger

variable {d d' : Desk} {t : Tables} {loanId founderId actor : String} {l : Loan} {x : Workflow.Definition}

theorem Tables.IsFree.hasRoom (h : t.IsFree loanId) : t.HasRoom loanId 1 := by
  rw [HasRoom, h.log]
  decide

theorem after_unlocked (ts : List Turn) : ∀ {d : Desk}, (d.after ts).locks = d.locks := by
  induction ts with
  | nil => exact rfl
  | cons y ts ih =>
    intro d
    exact (ih (d := d.turn y)).trans (turn_beside d y).locks

/-! ## Versions that do not fit -/

namespace Loans

theorem add_tooLarge (hd : d.IsReady) (hv : Column.fitsInteger l.definitionVersion = false) :
    add l d = .error .tooLarge d.broken := by
  have vast : (!Column.fitsInteger l.definitionVersion) = true := by rw [hv, Bool.not_false]
  exact Work.bind_of_error (change_refused hd (if_pos vast))

theorem open_tooLarge (founderId actor : String) (hd : d.IsReady) (hl : d.session.tables.loan? loanId = none)
    (hv : Column.fitsInteger x.version = false) : ∃ d', open_ loanId founderId x actor d = .error .tooLarge d' := by
  have ha := add_tooLarge (l := initial loanId founderId x) hd hv
  have added := savepoint_of_error (y := throw (.failure (.loanAlreadyExists loanId))) (statement_calm hd)
    (Work.bind_of_error ha) nofun
  exact ⟨_, (Work.bind_of_ok (get_none hd false hl)).trans (Work.bind_of_error added)⟩

end Loans

end Ledger

namespace Engine

variable {d d' : Desk} {g : Engine} {loanId founderId actor : String} {t : Tables}

/-- The rows show the loan in the initial state at version 1, and its log holds its opening. -/
structure Opened (g : Engine) (loanId founderId : String) (t : Tables) : Prop where
  loan :
    t.loan? loanId = some ⟨loanId, founderId, g.definition.initialState, g.definition.name, g.definition.version, 1⟩
  log : ∃ e, t.entriesOf loanId = [e] ∧ e.seq = 1 ∧ e.event = Audit.Tag.loanOpened.word

/-- What opening a loan does to the rows, where nothing was known of it. -/
theorem Opened.of_appended {time : Calendar.Timestamp} {e : Entry} {t' : Tables} (hc : Chained t) (hf : t.IsFree loanId)
    (ha : Appended loanId (Loans.openingRecord founderId actor g.definition time)
      { t with loans := t.loans ++ [Loans.initial loanId founderId g.definition] } e t') :
        Opened g loanId founderId t' := by
  have chained : Chained { t with loans := t.loans ++ [Loans.initial loanId founderId g.definition] } :=
    hc.of_same rfl rfl
  have log : t'.logOf loanId = [e] := ha.logOf.trans (congrArg (· ++ [e]) hf.log)
  refine ⟨?_, e, ?_, ?_, ha.event⟩
  · rw [ha.loan?, loan?_added, hf.loan, Option.none_or]
    exact if_pos rfl
  · rw [entriesOf_eq ((chained.appended ha).chain loanId), log]
  · have first :
        (Tables.logOf { t with loans := t.loans ++ [Loans.initial loanId founderId g.definition] } loanId) = [] :=
      hf.log
    rw [ha.seq, chained.nextNumber, first]
    rfl

/-- Where nothing disturbs the work, a loan of which nothing is known is opened. -/
theorem openLoan_calm (founderId actor : String) (hd : d.IsCalm) (ht : d.clock.IsTimely) (hc : Chained d.store)
    (hl : (d.locks.hold loanId g.lockTimeout).2 = .ok ()) (hf : d.store.IsFree loanId)
    (hv : Column.fitsInteger g.definition.version = true) :
    ∃ d', g.openLoan loanId founderId actor d = .ok (Loans.initial loanId founderId g.definition) d' ∧
      Opened g loanId founderId d'.store := by
  have ready : (d.entered loanId g.lockTimeout).IsReady := ⟨{ hd with }, rfl⟩
  obtain ⟨d₁, ho, -, ready₁, time, e, ha⟩ := Loans.open_ready founderId actor ready ht hc hf.hasRoom hf.loan hv
  obtain ⟨d', hr, hs, -⟩ := transact_of_ok hl ho ready₁
  exact ⟨d', hr, hs ▸ .of_appended hc hf ha⟩

theorem openLoan_tooLarge (founderId actor : String) (hd : d.IsCalm)
    (hl : (d.locks.hold loanId g.lockTimeout).2 = .ok ()) (hf : d.store.loan? loanId = none)
    (hv : Column.fitsInteger g.definition.version = false) :
    ∃ d', g.openLoan loanId founderId actor d = .error .tooLarge d' ∧ d'.store = d.store := by
  have ready : (d.entered loanId g.lockTimeout).IsReady := ⟨{ hd with }, rfl⟩
  obtain ⟨d₁, ho⟩ := Loans.open_tooLarge founderId actor ready hf hv
  obtain ⟨d', hr⟩ := transact_of_error hl ho
  have served := serve_served g (.open_ loanId founderId actor) hd.isHonest
  rw [show g.serve (.open_ loanId founderId actor) d = .error .tooLarge d' from Work.map_of_error hr] at served
  cases served with
  | failed hs => exact ⟨d', hr, hs⟩

/-! ## Runs -/

/-- A valid definition is usable as long as its version fits. After any run of calls and of appended entries,
disturbed in any way, an engine under a valid definition opens every loan of which nothing is known, and leaves it in
the initial state at version 1 with its opening as the one entry of its log. Where the version does not fit its
column, which the check of definitions lets pass, opening fails and commits nothing. -/
theorem valid_definition_opens (d : Desk) (ts : List Turn) (g : Engine) (clock : Clock)
    (loanId founderId actor : String) (hd : d.IsNew) (hts : ∀ y ∈ ts, y.Logs) (hx : g.definition.isValid = true)
    (hp : ∃ p, Patience.ofValue? g.lockTimeout = .ok p) (ht : clock.IsTimely)
    (hf : (d.after ts).store.IsFree loanId) :
    (g.definition.version < Nat.pow 2 63 →
      ∃ l d', g.openLoan loanId founderId actor ((d.after ts).prepared clock .none) = .ok l d' ∧
        Opened g loanId founderId d'.store) ∧
    (Nat.pow 2 63 ≤ g.definition.version →
      ∃ d', g.openLoan loanId founderId actor ((d.after ts).prepared clock .none) = .error .tooLarge d' ∧
        d'.store = (d.after ts).store) := by
  have chained : Chained (d.after ts).store := after_chained hts (hd.store ▸ chained_empty)
  have free : (((d.after ts).prepared clock .none).locks.hold loanId g.lockTimeout).2 = .ok () := by
    obtain ⟨p, hp⟩ := hp
    have locks : ((d.after ts).prepared clock .none).locks = .empty := (after_unlocked ts).trans hd.locks
    rw [locks]
    exact Locks.hold_empty hp loanId
  have positive := Workflow.Definition.version_pos hx
  refine ⟨fun hv => ?_, fun hv => ?_⟩
  · have fits : Column.fitsInteger g.definition.version = true := by
      rw [Column.fitsInteger, Bool.and_eq_true, decide_eq_true_iff, decide_eq_true_iff]
      omega
    obtain ⟨d', hr, ho⟩ :=
      openLoan_calm (d := (d.after ts).prepared clock .none) founderId actor ⟨rfl, rfl, rfl⟩ ht chained
        free hf fits
    exact ⟨_, d', hr, ho⟩
  · have vast : Column.fitsInteger g.definition.version = false := by
      rw [Column.fitsInteger, Bool.and_eq_false_iff, decide_eq_false_iff_not, decide_eq_false_iff_not]
      omega
    exact openLoan_tooLarge (d := (d.after ts).prepared clock .none) founderId actor ⟨rfl, rfl, rfl⟩
      free hf.loan vast

theorem openedAtNoon_logs : ∀ y ∈ openedAtNoon, y.Logs := by
  intro y hy
  obtain rfl := List.mem_singleton.mp hy
  exact .call Disturbance.none_isHonest

theorem openedAtNoon_isFree : (noon.after openedAtNoon).store.IsFree "L2" := by
  obtain ⟨-, he⟩ := after_explains openedAtNoon_isCall (d := noon) chained_empty explains_empty
  have closed : (noon.after openedAtNoon).store.loan? "L2" = none := by
    have shown := congrArg (·.state? "L2") openedAtNoon_shows.2
    simpa [Machine.put, Machine.empty] using shown
  exact ⟨closed, he.noRow closed⟩

theorem valid_definition_opens_at_noon :
    noon.IsNew ∧ (∀ y ∈ openedAtNoon, y.Logs) ∧ still.definition.isValid = true ∧ noon.clock.IsTimely ∧
      (noon.after openedAtNoon).store.IsFree "L2" ∧ still.definition.version < Nat.pow 2 63 ∧
      ∃ l d', still.openLoan "L2" "F2" systemActor
          ((noon.after openedAtNoon).prepared noon.clock .none) = .ok l d' ∧
        Opened still "L2" "F2" d'.store := by
  have valid : still.definition.isValid = true := by decide
  have fits : still.definition.version < Nat.pow 2 63 := by decide
  exact ⟨⟨rfl, rfl⟩, openedAtNoon_logs, valid, noon_isTimely, openedAtNoon_isFree, fits,
    (valid_definition_opens noon openedAtNoon still noon.clock "L2" "F2" systemActor ⟨rfl, rfl⟩
      openedAtNoon_logs valid
      ⟨_, rfl⟩ noon_isTimely openedAtNoon_isFree).1 fits⟩

def vast : Engine := { still with definition := { still.definition with version := Nat.pow 2 63 } }

/-- A valid definition can be unusable: nothing is wrong with this one, and no loan is opened under it. -/
theorem vast_isRefused :
    noon.IsNew ∧ vast.definition.isValid = true ∧ noon.store.IsFree "L1" ∧
      ¬ ∃ l d', vast.openLoan "L1" "F1" systemActor noon = .ok l d' ∧ Opened vast "L1" "F1" d'.store := by
  have calm : noon.IsCalm := ⟨rfl, rfl, rfl⟩
  have free : (noon.locks.hold "L1" vast.lockTimeout).2 = .ok () := Locks.hold_empty (p := _) rfl "L1"
  have unknown : noon.store.loan? "L1" = none := rfl
  obtain ⟨d', h, -⟩ := openLoan_tooLarge "F1" systemActor calm free unknown rfl
  refine ⟨⟨rfl, rfl⟩, by decide, ⟨rfl, rfl⟩, ?_⟩
  rintro ⟨l, d'', ho, -⟩
  cases h.symm.trans ho

end Engine

end LoanLedger
