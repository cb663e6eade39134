import LoanLedger.Locks.Basic

/-!
# Many who want locks

Any number of holders at one table, whose steps come in any order. The table maps ids to cells, and a holder goes on
with the cell that it checked out, whatever the table says meanwhile.

* `Crowd` : the cells, the table, and the holders, each at some point of its way;
* `Crowd.checkout`, `Crowd.checkin` : the entry of an id is checked out, and checked in, which reclaims it when nobody
  is left; both are undivided;
* `Crowd.step s x` : the crowd after one step of one holder, if that step can be taken: to check out, to acquire the
  lock when it is free, to give up waiting, to release the lock, to check in;
* `Crowd.run xs` : the crowd after steps, from an empty table;
* `Crowd.view s` : the table as those see it who do not tell cells apart.
-/

namespace LoanLedger.Locks

/-! ## Holders -/

/-- A lock, and how many have checked it out. -/
structure Cell where
  refs : Int
  isTaken : Bool
  deriving Repr, DecidableEq

inductive Ending where
  | refused (e : Error)
  /-- The lock was held, and the work under it ended, with a failure or without. -/
  | left (isRaised : Bool)
  deriving Repr, DecidableEq

/-- How far a holder has come. -/
inductive Phase where
  | waiting
  | holding
  /-- It does not hold the lock (any more), and has not checked in yet. -/
  | leaving (r : Ending)
  | gone (r : Ending)
  deriving Repr, DecidableEq

/-- Somebody who wants the lock of a loan. -/
structure Holder where
  who : Nat
  id : String
  timeout : Value
  cell : Nat
  phase : Phase

def Holder.isIn (h : Holder) : Bool :=
  match h.phase with
  | .gone _ => false
  | _ => true

/-- Why the holder may give up: its waiting time is refused, or has an end. -/
def Holder.refusal? (h : Holder) : Option Error :=
  match Patience.ofValue? h.timeout with
  | .error e => some (.patience e)
  | .ok .limited => some .timedOut
  | .ok .forever => none

def Holder.isPatient (h : Holder) : Bool :=
  (Patience.ofValue? h.timeout).toOption.isSome

/-! ## The crowd -/

structure Crowd where
  cells : List Cell
  table : List (String × Nat)
  holders : List Holder

inductive Step where
  | arrive (who : Nat) (id : String) (timeout : Value)
  | acquire (who : Nat)
  | giveUp (who : Nat)
  | release (who : Nat) (isRaised : Bool)
  | checkin (who : Nat)

def Step.who : Step → Nat
  | arrive who .. => who
  | acquire who => who
  | giveUp who => who
  | release who _ => who
  | checkin who => who

namespace Crowd

def empty : Crowd := ⟨[], [], []⟩

def find? (s : Crowd) (who : Nat) : Option Holder :=
  s.holders.find? (·.who = who)

def put (s : Crowd) (a : Nat) (c : Cell) : Crowd :=
  { s with cells := s.cells.set a c }

/-- The crowd with a holder who has come to another point. -/
def move (s : Crowd) (who : Nat) (p : Phase) : Crowd :=
  { s with holders := s.holders.map fun h => if h.who = who then { h with phase := p } else h }

/-- The entry of an id with one more who has checked it out, made when there is none, and its cell. -/
def checkout (s : Crowd) (id : String) : Option (Crowd × Nat) :=
  match s.table.lookup id with
  | some a => do
    let c ← s.cells[a]?
    some (s.put a { c with refs := c.refs + 1 }, a)
  | none => some ({ s with cells := s.cells ++ [⟨1, false⟩], table := s.table ++ [(id, s.cells.length)] },
    s.cells.length)

/-- A cell with one less who has checked it out. With the last one the entry of the id goes, which must be there. -/
def checkin (s : Crowd) (id : String) (a : Nat) : Option Crowd := do
  let c ← s.cells[a]?
  let s := s.put a { c with refs := c.refs - 1 }
  if c.refs - 1 ≠ 0 then some s
  else if (s.table.lookup id).isSome then some { s with table := s.table.filter (·.1 ≠ id) }
  else none

/-- The crowd after a step, if it can be taken. Only a lock that is taken can be released. -/
def step (s : Crowd) : Step → Option Crowd
  | .arrive who id timeout =>
    if (s.find? who).isSome then none
    else do
      let (s, a) ← s.checkout id
      some { s with holders := s.holders ++ [⟨who, id, timeout, a, .waiting⟩] }
  | .acquire who => do
    let h ← s.find? who
    let c ← s.cells[h.cell]?
    if h.phase = .waiting ∧ h.isPatient = true ∧ c.isTaken = false then
      some ((s.put h.cell { c with isTaken := true }).move who .holding)
    else none
  | .giveUp who => do
    let h ← s.find? who
    let e ← h.refusal?
    if h.phase = .waiting then some (s.move who (.leaving (.refused e))) else none
  | .release who isRaised => do
    let h ← s.find? who
    let c ← s.cells[h.cell]?
    if h.phase = .holding ∧ c.isTaken = true then
      some ((s.put h.cell { c with isTaken := false }).move who (.leaving (.left isRaised)))
    else none
  | .checkin who => do
    let h ← s.find? who
    match h.phase with
    | .leaving r => (s.checkin h.id h.cell).map (·.move who (.gone r))
    | _ => none

def after (s : Crowd) (xs : List Step) : Option Crowd :=
  xs.foldlM step s

def run (xs : List Step) : Option Crowd :=
  empty.after xs

/-! ## What the table shows -/

/-- The entry that a cell shows while somebody has checked it out. -/
def shown? (c : Cell) : Option LockEntry :=
  if h : 0 < c.refs.toNat then some ⟨c.refs.toNat, c.isTaken, h⟩ else none

def view (s : Crowd) : Locks :=
  s.table.filterMap fun p => ((s.cells[p.2]?).bind shown?).map fun e => (p.1, e)

end Crowd

end LoanLedger.Locks
