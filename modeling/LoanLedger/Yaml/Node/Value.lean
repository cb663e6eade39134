import LoanLedger.Text.Bytes
import LoanLedger.Value.Key
import LoanLedger.Yaml.Node

/-!
# The values of nodes

* `Built α` : a result, or the fault that shows first;
* `Node.build d n` : the value of the node `n` at the depth `d`;
* `Node.value? n` : the value of the whole tree `n`.

A tree is built level by level: a collection is there before its elements are. Of several faults the
one of least depth shows, of equals the leftmost. A merge puts the entries of other mappings in front
of a mapping's own, so that its own replace them.
-/

namespace LoanLedger.Yaml

/-- A result, or the fault that shows first, with its depth. -/
abbrev Built (α : Type) := Except (Nat × Error) α

namespace Built

/-- Two results, or the fault of the two that shows first. -/
def both {α β : Type} : Built α → Built β → Built (α × β)
  | .ok a, .ok b => .ok (a, b)
  | .error e, .ok _ => .error e
  | .ok _, .error e => .error e
  | .error e, .error f => .error (if f.1 < e.1 then f else e)

/-- A result in front of others. -/
def cons {α : Type} (a : Built α) (as : Built (List α)) : Built (List α) :=
  (both a as).map fun p => p.1 :: p.2

/-- Results in front of others. -/
def append {α : Type} (as bs : Built (List α)) : Built (List α) :=
  (both as bs).map fun p => p.1 ++ p.2

end Built

/-- The truth value that a scalar writes. -/
def truthOf (s : String) : Except Error Bool :=
  let word := s.toLower
  match truthWords.lookup word with
  | some b => .ok b
  | none => .error (.noTruthValue word)

/-- The bytes that a scalar writes to the base 64. -/
def bytesOf (s : String) : Except Error (List UInt8) :=
  if s.toList.all (·.toNat < 0x80) then
    match Text.ofBase64? s.toList with
    | some bs => .ok bs
    | none => .error .malformed
  else .error .malformed

/-- The value of a scalar. -/
def scalarValue (tag : Tag) (text : String) : Except Error Value :=
  match tag with
  | .null => .ok .null
  | .bool => (truthOf text).map .bool
  | .int => (intOf text).map .int
  | .float => (floatOf text).map .float
  | .binary => (bytesOf text).map .bytes
  | .timestamp => timeOf (dropFinalBreak text.toList)
  | .str => .ok (.text text)
  | _ => .error .malformed

namespace Node

/-! ## Merges -/

mutual

/-- Whether all merges in a mapping, and in the mappings merged, are of mappings. -/
def canMerge : List (Node × Node) → Bool
  | [] => true
  | (k, v) :: es => (!k.isMerge || v.isMergeable) && canMerge es

/-- Whether a node can be merged into a mapping: a mapping, or a sequence of mappings. -/
def isMergeable : Node → Bool
  | mapping _ es => canMerge es
  | sequence _ ns => areMappings ns
  | enclosing => true
  | scalar .. => false

/-- Whether the nodes are mappings with merges of mappings. -/
def areMappings : List Node → Bool
  | [] => true
  | n :: ns => (match n with
      | mapping _ es => canMerge es
      | enclosing => true
      | _ => false) && areMappings ns

end

/-! ## Scalars in the shape of mappings -/

mutual

/-- The text of a scalar. A mapping may stand for one: what its first key for values tells. -/
def scalarText? : Node → Option String
  | scalar _ s => some s
  | mapping _ es => entryText? es
  | _ => none

/-- The text under the first key for values. -/
def entryText? : List (Node × Node) → Option String
  | [] => none
  | (k, v) :: es => if k.tag = .value then v.scalarText? else entryText? es

end

/-- The value of a collection that is meant to be a scalar. -/
def standIn (d : Nat) (n : Node) : Built Value :=
  match n.scalarText? with
  | none => .error (d, .malformed)
  | some s =>
    if n.tag = .timestamp then .error (d, .timeOfMapping) else (scalarValue n.tag s).mapError (d, ·)

def isCollection : Tag → Bool
  | .seq | .map | .set | .omap | .pairs => true
  | _ => false

/-! ## Values -/

/-- The entries of a mapping, those of merges first. -/
def joinMerged (d : Nat) (es : List (Node × Node)) (merged own : Built (List (Value × Value))) :
    Built (List (Value × Value)) :=
  if canMerge es then merged.append own else .error (d, .malformed)

mutual

/-- The value of a node at a depth. A collection around it is filled in later. -/
def build (d : Nat) : Node → Built Value
  | scalar t s => (scalarValue t s).mapError (if isCollection t then d + 1 else d, ·)
  | sequence t ns => match t with
    | .seq => (buildAll (d + 1) ns).map .list
    | .omap | .pairs => (buildPairs (d + 1) ns).map .list
    | .map | .set => .error (d + 1, .malformed)
    | t => standIn d (sequence t [])
  | mapping t es => match t with
    | .map => (joinMerged (d + 1) es (buildMerged (d + 1) es) (buildOwn (d + 1) es)).map fun ps => Value.ofPairs ps
    | .set => (joinMerged (d + 1) es (buildMerged (d + 1) es) (buildOwn (d + 1) es)).map
        fun ps => .set ((Entries.ofPairs ps).map (·.1))
    | .seq | .omap | .pairs => .error (d + 1, .malformed)
    | t => standIn d (mapping t es)
  | enclosing => .ok .null

def buildAll (d : Nat) : List Node → Built (List Value)
  | [] => .ok []
  | n :: ns => (build d n).cons (buildAll d ns)

/-- The pairs of mappings with one entry each. -/
def buildPairs (d : Nat) : List Node → Built (List Value)
  | [] => .ok []
  | mapping _ [(k, v)] :: ns =>
    let pair : Built Value := ((build d k).both (build d v)).map fun p => .tuple [p.1, p.2]
    pair.cons (buildPairs d ns)
  | _ :: _ => .error (d, .malformed)

/-- The entries of a mapping that are its own. -/
def buildOwn (d : Nat) : List (Node × Node) → Built (List (Value × Value))
  | [] => .ok []
  | (k, v) :: es =>
    if k.isMerge then buildOwn d es
    else ((buildKey d k).both (build d v)).cons (buildOwn d es)

/-- The entries that merges put into a mapping. -/
def buildMerged (d : Nat) : List (Node × Node) → Built (List (Value × Value))
  | [] => .ok []
  | (k, v) :: es =>
    if k.isMerge then (buildFrom d v).append (buildMerged d es) else buildMerged d es

/-- The entries that the merge of a node gives. -/
def buildFrom (d : Nat) : Node → Built (List (Value × Value))
  | mapping _ es => (buildMerged d es).append (buildOwn d es)
  | sequence _ ns => buildFromAll d ns
  | _ => .ok []

/-- The entries that the merge of several nodes gives. What an earlier one tells comes later, to
replace what others tell. -/
def buildFromAll (d : Nat) : List Node → Built (List (Value × Value))
  | [] => .ok []
  | n :: ns => (buildFromAll d ns).append (buildFrom d n)

def buildKey (d : Nat) : Node → Built Value
  | scalar .value s => .ok (.text s)
  | scalar t s => if isCollection t then .error (d, .malformed) else (scalarValue t s).mapError (d, ·)
  | n => if isCollection n.tag then .error (d, .malformed) else standIn d n

end

def value? (n : Node) : Except Error Value :=
  match n.build 0 with
  | .ok v => if n.isEndless then .error .endless else .ok v
  | .error e => .error e.2

end Node

end LoanLedger.Yaml
