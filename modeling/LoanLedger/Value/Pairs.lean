import LoanLedger.Value.Key

/-!
# Values as maps

* `Value.elements? v` : the elements of a value that has some: characters, bytes, keys;
* `Value.toEntries? v` : the entries of a map, or the map that a sequence of pairs makes.
-/

namespace LoanLedger

/-- Why a value makes no map. -/
inductive PairError where
  | notIterable (sort : String)
  | notSequence (place : Nat)
  | notPair (place length : Nat)
  | notKey (sort : String)
  deriving Repr, DecidableEq

/-- The wording. -/
def PairError.message : PairError → String
  | .notIterable sort => "'" ++ sort ++ "' object is not iterable"
  | .notSequence n =>
    "cannot convert dictionary update sequence element #" ++ n.repr ++ " to a sequence"
  | .notPair n length =>
    "dictionary update sequence element #" ++ n.repr ++ " has length " ++ length.repr ++
      "; 2 is required"
  | .notKey sort => "unhashable type: '" ++ sort ++ "'"

namespace Value

def elements? : Value → Option (List Value)
  | list vs | tuple vs | set vs => some vs
  | map es => some (es.map (·.1))
  | bytes bs => some (bs.map fun b => int b.toNat)
  | v => v.text?.map fun s => s.toList.map fun c => text (String.ofList [c])

/-- Puts pairs into a map one after the other; they are counted from a place on. -/
def putPairs? : Nat → Entries → List Value → Except PairError Entries
  | _, es, [] => .ok es
  | n, es, v :: vs =>
    match v.elements? with
    | none => .error (.notSequence n)
    | some [k, w] => if k.isKey then putPairs? (n + 1) (es.put k w) vs else .error (.notKey k.sort)
    | some ws => .error (.notPair n ws.length)

def toEntries? : Value → Except PairError Entries
  | map es => .ok es
  | v => match v.elements? with
    | some vs => putPairs? 0 [] vs
    | none => .error (.notIterable v.sort)

end Value

end LoanLedger
