import LoanLedger.Failure.Basic
import LoanLedger.Value.Arguments
import LoanLedger.Value.Pairs

/-!
# Failures handed in from outside

* `Failure.give? k args named` : the failure of kind `k` with particulars told in order or by name.
-/

namespace LoanLedger.Failure

/-- Why particulars do not make a failure. -/
inductive GivenError where
  | arguments (e : ArgumentError)
  /-- Errors were to be listed, but a value of this sort has no elements. -/
  | notIterable (sort : String)
  | notText (place : Nat) (sort : String)
  deriving Repr, DecidableEq

def GivenError.message : GivenError → String
  | .arguments e => e.message
  | .notIterable sort => (PairError.notIterable sort).message
  | .notText place sort =>
    "sequence item " ++ place.repr ++ ": expected str instance, " ++ sort ++ " found"

def Kind.signature? (k : Kind) : Option Signature :=
  k.parameters?.map fun p => ⟨k.name, p.1, p.2⟩

/-- The particulars of a kind, in order, from those told in order and those told by name. -/
def Kind.bind? (k : Kind) (args : List Value) (named : List (String × Value)) :
    Except ArgumentError (List Value) :=
  match k.signature? with
  | none => if named.isEmpty then .ok args else .error (.noNames k.name)
  | some s => do
    let told ← s.bind? args named
    pure ((s.required ++ s.free).map fun n => (told.lookup n).getD .null)

def checkTexts? : Nat → List Value → Except GivenError Unit
  | _, [] => .ok ()
  | n, v :: vs =>
    if 5 ≤ n then .ok ()
    else if v.text?.isSome then checkTexts? (n + 1) vs
    else .error (.notText n v.sort)

/-- The failure of a kind with particulars told in order or by name. -/
def give? (k : Kind) (args : List Value) (named : List (String × Value)) :
    Except GivenError Failure := do
  let vs ← match k.bind? args named with
    | .ok vs => pure vs
    | .error e => throw (.arguments e)
  match k, vs with
  | .definitionInvalid, [source, errors] =>
    match errors.elements? with
    | none => throw (.notIterable errors.sort)
    | some es => do
      checkTexts? 0 es
      pure (.given k [source, .list es])
  | _, _ => pure (.given k vs)

end LoanLedger.Failure
