import LoanLedger.Proofs.Calls
import LoanLedger.Proofs.Retry
import LoanLedger.Proofs.Tame.Basic

/-!
# Turns

* `Disturbance.IsHonest z`, `Disturbance.Spares z k` : only look-ups find nothing, and no fault pretends a failure of
  the kind `k`;
* `Turn.IsCall x` : the turn is a call of an engine, disturbed in an honest way;
* `call_turn` : such a turn commits nothing, or all that its call did to the rows.
-/

namespace LoanLedger

open Ledger Engine

/-- Only those calls may find nothing that look something up. -/
def Disturbance.IsHonest (x : Disturbance) : Prop :=
  ∀ p n, (p, Effect.miss n) ∈ x.faults.map Fault.plan → p.isLookup

/-- A call of an engine, disturbed in any way. -/
inductive Turn.IsCall : Turn → Prop where
  | call {clock : Clock} {x : Disturbance} {g : Engine} {c : Call} :
    x.IsHonest → IsCall ⟨clock, x, .call g c⟩

theorem Disturbance.none_isHonest : Disturbance.IsHonest .none := fun _ _ h => by cases h

def Disturbance.Spares (z : Disturbance) (k : Failure.Kind) : Prop :=
  ∀ p n e, (p, Effect.fail n e) ∈ z.faults.map Fault.plan → e.kind? ≠ some k

theorem Disturbance.none_spares (k : Failure.Kind) : Disturbance.Spares .none k := fun _ _ _ h => by cases h

theorem Disturbance.Spares.desk {z : Disturbance} {k : Failure.Kind} (h : z.Spares k) (d : Desk) (clock : Clock) :
    (d.prepared clock z).Spares k :=
  fun e ⟨p, n, hn⟩ => h p n e hn

namespace Ledger

theorem desk_discard {α : Type} (x : Work α) (d : Desk) : (discard x : Work PUnit).desk d = x.desk d :=
  Work.desk_map (fun _ => PUnit.unit) x d

theorem after_cons (d : Desk) (y : Turn) (ts : List Turn) : d.after (y :: ts) = (d.turn y).after ts := rfl

theorem after_singleton (d : Desk) (y : Turn) : d.after [y] = d.turn y := rfl

theorem Desk.prepared_store (d : Desk) (clock : Clock) (x : Disturbance) : (d.prepared clock x).store = d.store := rfl

theorem Desk.prepared_isCalm (d : Desk) (clock : Clock) : (d.prepared clock .none).IsCalm := ⟨rfl, rfl, rfl⟩

/-- A call commits nothing, or all that it did to the rows. -/
theorem call_turn {d : Desk} {clock : Clock} {x : Disturbance} {g : Engine} {c : Call} (hx : x.IsHonest) :
    (d.turn ⟨clock, x, .call g c⟩).store = d.store ∨
      ∃ a, g.Told d.store c a (d.turn ⟨clock, x, .call g c⟩).store := by
  unfold Desk.turn Job.run
  rw [desk_discard]
  rcases (serve_settled g c (d := d.prepared clock x) hx).store with h | ⟨d₀, a, d₁, hb, hw, h⟩
  · exact .inl h
  · have ht := work_told (hb.isHonest hx) hw
    rw [hb.session] at ht
    rw [h]
    exact .inr ⟨a, ht⟩

end Ledger

end LoanLedger
