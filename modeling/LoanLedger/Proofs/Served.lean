import LoanLedger.Proofs.Explained
import LoanLedger.Proofs.Following
import LoanLedger.Proofs.Sequencing

/-!
# How calls end

* `Served g c d r` : `r` is what came of the call `c` at the desk `d`: it failed or told of a move made
  before, and the rows stayed; or it was answered by what it did to them;
* `serve_served` : so every call ends, however it was disturbed;
* `Turn.IsCallOf p` : a call of an engine with some property, disturbed in an honest way; `run_keeps` :
  what every such call keeps of the rows, every run of them keeps;
* `Applies g e a b d ts` : somewhere in the turns `ts` from the desk `d` on, the engine `g` answers the
  event `e` by a move from `a` to `b`.
-/

namespace LoanLedger.Engine

open Ledger

variable {d d' : Desk} {g : Engine} {c : Call} {e : Event} {t t' : Tables} {a b loanId : String}

/-! ## Calls -/

inductive Served (g : Engine) (c : Call) (d : Desk) : EStateM.Result Ledger.Error Desk Answer → Prop where
  | failed {err : Ledger.Error} {d' : Desk} : d'.store = d.store → Served g c d (.error err d')
  | duplicate {x : Answer} {d' : Desk} : x.isDuplicate = true → d'.store = d.store → Served g c d (.ok x d')
  | told {x : Answer} {d' : Desk} : x.isDuplicate = false → g.Told d.store c x d'.store → Served g c d (.ok x d')

theorem serve_served (g : Engine) (c : Call) (hd : d.IsHonest) : Served g c d (g.serve c d) := by
  have settled := serve_settled g c hd
  generalize g.serve c d = r at settled
  cases settled with
  | failed hs => exact .failed hs
  | nothing hn hs => exact .duplicate hn hs
  | done hn hb hw hs =>
    have told := work_told (hb.isHonest hd) hw
    rw [hb.session] at told
    exact .told hn (hs ▸ told)

/-- What the work of a call keeps of the rows stays when the call ends. -/
theorem Served.keeps {P : Tables → Prop} (h : Served g c d (g.serve c d)) (hP : P d.store)
    (hk : ∀ {x t'}, g.Told d.store c x t' → P t') : P ((g.serve c).desk d).store := by
  generalize hr : g.serve c d = r at h
  cases h with
  | failed hs => rwa [Work.desk_of_error hr, hs]
  | duplicate _ hs => rwa [Work.desk_of_ok hr, hs]
  | told _ ht =>
    rw [Work.desk_of_ok hr]
    exact hk ht

/-! ## What stays -/

/-- A loan that is open stays open. -/
theorem Told.loan_stays (h : g.Told t c x t') {l : Loan} (hl : t.loan? loanId = some l) :
    ∃ l', t'.loan? loanId = some l' := by
  cases h with
  | opened _ ha => exact ⟨l, by rw [ha.loan?, loan?_added, hl, Option.some_or]⟩
  | ignored _ _ _ ha => exact ⟨l, by rw [ha.loan?, hl]⟩
  | @applied e _ _ _ _ _ _ _ _ _ _ _ hr hm ha =>
    have hl := (loan?_of_loans hr.loans loanId).trans hl
    rw [ha.loan?]
    by_cases ho : loanId = e.loanId
    · subst ho
      obtain ⟨l', hl', -⟩ := hm.loan hl
      exact ⟨l', hl'⟩
    · exact ⟨l, by rw [hm.other ho, hl]⟩
  | paid _ hr => exact ⟨l, by rw [loan?_of_loans hr.loans, hl]⟩

theorem entryByKey?_stays {key : String} {entry : Entry} (h : Keeping t t') (he : t.entryByKey? key = some entry) :
    t'.entryByKey? key = some entry := by
  obtain ⟨es, hes⟩ := h
  unfold Tables.entryByKey? at he ⊢
  rw [← hes, List.find?_append, he, Option.some_or]

end LoanLedger.Engine

/-! ## Turns -/

namespace LoanLedger

open Ledger Engine

/-- A call of an engine with some property, disturbed in an honest way. -/
inductive Turn.IsCallOf (p : Engine → Prop) : Turn → Prop where
  | call {clock : Clock} {x : Disturbance} {g : Engine} {c : Call} :
    x.IsHonest → p g → IsCallOf p ⟨clock, x, .call g c⟩

theorem Turn.IsCallOf.isCall {p : Engine → Prop} {x : Turn} (h : x.IsCallOf p) : x.IsCall := by
  cases h with
  | call hx _ => exact .call hx

theorem Turn.IsCall.any {x : Turn} (h : x.IsCall) : x.IsCallOf fun _ => True := by
  cases h with
  | call hx => exact .call hx trivial

namespace Ledger

variable {d : Desk} {clock : Clock} {z : Disturbance} {g : Engine} {c : Call} {p : Engine → Prop} {ts : List Turn}

theorem turn_call (d : Desk) (clock : Clock) (z : Disturbance) (g : Engine) (c : Call) :
    d.turn ⟨clock, z, .call g c⟩ = (g.serve c).desk (d.prepared clock z) :=
  desk_discard _ _

/-- What calls keep of the rows, whatever answers them, runs keep. -/
theorem run_keeps {P : Tables → Prop} (hk : ∀ {g c x t t'}, p g → P t → g.Told t c x t' → P t')
    (hts : ∀ y ∈ ts, y.IsCallOf p) : ∀ {d : Desk}, P d.store → P (d.after ts).store := by
  induction ts with
  | nil => exact id
  | cons y ts ih =>
    intro d hP
    refine ih (fun y hy => hts y (List.mem_cons_of_mem _ hy)) (d := d.turn y) ?_
    obtain ⟨hz, hp⟩ := hts y List.mem_cons_self
    rw [turn_call]
    exact (serve_served (d := d.prepared _ _) _ _ hz).keeps hP fun ht => hk hp hP ht

theorem turn_locks {y : Turn} (hy : y.IsCall) (d : Desk) : (d.turn y).locks = d.locks := by
  obtain ⟨hz⟩ := hy
  rw [turn_call]
  exact (serve_beside _ _ _).locks

theorem after_locks (hts : ∀ y ∈ ts, y.IsCall) : ∀ {d : Desk}, (d.after ts).locks = d.locks := by
  induction ts with
  | nil => exact rfl
  | cons y ts ih =>
    intro d
    exact (ih (fun y hy => hts y (List.mem_cons_of_mem _ hy)) (d := d.turn y)).trans
      (turn_locks (hts y List.mem_cons_self) d)

end Ledger

namespace Engine

/-! ## Events that are applied -/

/-- Somewhere in the turns an event is applied: an engine answers it by a move. -/
inductive Applies (g : Engine) (e : Event) (a b : String) : Desk → List Turn → Prop where
  | now {d : Desk} {clock : Clock} {z : Disturbance} {rs : List ActionResult} {ts : List Turn} :
    (g.handle e).answer (d.prepared clock z) = .ok (Outcome.of e (.applied a b rs)) →
    Applies g e a b d (⟨clock, z, .call g (.handle e)⟩ :: ts)
  | later {d : Desk} {x : Turn} {ts : List Turn} : Applies g e a b (d.turn x) ts → Applies g e a b d (x :: ts)

theorem Applies.mem {ts : List Turn} (h : Applies g e a b d ts) :
    ∃ clock z, ⟨clock, z, .call g (.handle e)⟩ ∈ ts := by
  induction h with
  | now => exact ⟨_, _, List.mem_cons_self⟩
  | later _ ih =>
    obtain ⟨clock, z, hy⟩ := ih
    exact ⟨clock, z, List.mem_cons_of_mem _ hy⟩

end Engine

end LoanLedger
