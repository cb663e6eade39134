import LoanLedger.Engine.Run

/-!
# The engine as a machine

What the engine comes to, apart from how the ledger keeps it.

* `Machine` : the state of every loan that is open, and the moves that were made under their keys;
* `Reply` : what a call is answered by; `Reply.of? r` reads it off how the call went;
* `Machine.step x m c` : the replies that the machine leaves open for the call `c` under the definition
  `x`, each with the machine afterwards. What was requested is not kept, so that a payment has two of them;
* `Machine.of t` : the machine that the rows `t` show;
* `Follows g m d calls` : from the desk `d` on, every call is answered as by the machine `m`, and the rows
  show the machine all along.
-/

namespace LoanLedger.Engine

open Ledger (Desk Tables)
open Workflow (Definition)

/-! ## Replies -/

inductive Reply where
  | opened
  | applied (fromState toState : String)
  | ignored (fromState : String)
  | duplicate (fromState toState : String)
  | paid
  | failed (k : Failure.Kind)
  deriving Repr, DecidableEq

def Reply.ofDecision? : Decision → Option Reply
  | .applied a b _ => some (.applied a b)
  | .ignored a => some (.ignored a)
  | .duplicate (.text a) (.text b) => some (.duplicate a b)
  | .duplicate .. => none

def Reply.of? : Except Ledger.Error Answer → Option Reply
  | .ok (.opened _) => some .opened
  | .ok (.handled o) => Reply.ofDecision? o.decision
  | .ok (.paid _) => some .paid
  | .error e => e.kind?.map .failed

/-! ## The machine -/

/-- The state of every loan that is open, and the moves that were made under their keys. -/
structure Machine where
  state? : String → Option String
  move? : String → Option (String × String)

namespace Machine

def empty : Machine := ⟨fun _ => none, fun _ => none⟩

def put (m : Machine) (loanId state : String) : Machine :=
  { m with state? := fun id => if id = loanId then some state else m.state? id }

def record (m : Machine) (key : String) (move : String × String) : Machine :=
  { m with move? := fun k => if k = key then some move else m.move? k }

/-- How the machine answers an event, and what it comes to. -/
def handle (x : Definition) (m : Machine) (e : Event) : Reply × Machine :=
  match m.state? e.loanId with
  | none => (.failed .loanNotFound, m)
  | some a => match x.find? a with
    | none => (.failed .invalidState, m)
    | some s => match m.move? e.key with
      | some move => (.duplicate move.1 move.2, m)
      | none => match s.find? e.type with
        | none => (.ignored a, m)
        | some t => (.applied a t.to, (m.put e.loanId t.to).record e.key (a, t.to))

def step (x : Definition) (m : Machine) : Call → List (Reply × Machine)
  | .open_ loanId _ _ => match m.state? loanId with
    | some _ => [(.failed .loanAlreadyExists, m)]
    | none => [(.opened, m.put loanId x.initialState)]
  | .handle e => [m.handle x e]
  | .pay _ _ _ => [(.paid, m), (.failed .disbursementNotFound, m)]

def of (t : Tables) : Machine where
  state? loanId := (t.loan? loanId).map (·.state)
  move? key := (t.entryByKey? key).bind (·.move?)

end Machine

/-! ## Runs -/

/-- Every call is answered as by the machine, and the rows show the machine all along. -/
def Follows (g : Engine) (m : Machine) (d : Desk) : List (Clock × Call) → Prop
  | [] => Machine.of d.store = m
  | (clock, c) :: calls => Machine.of d.store = m ∧ ∃ r m',
    Reply.of? ((g.serve c).answer (d.prepared clock .none)) = some r ∧ (r, m') ∈ m.step g.definition c ∧
      Follows g m' ((g.serve c).desk (d.prepared clock .none)) calls

end LoanLedger.Engine
