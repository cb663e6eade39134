import LoanLedger.Yaml.Tag

/-!
# Nodes

* `Node` : the tree that a document writes, each node with what it is meant to be. What a reference
  names stands in its place;
* `Node.empty` : what stands where nothing is written;
* `Node.tag n`, `Node.isMerge n` : what `n` is meant to be, and whether it is the key of a merge;
* `Node.isEndless n` : whether some collection contains itself.
-/

namespace LoanLedger.Yaml

inductive Node where
  | scalar (tag : Tag) (text : String)
  | sequence (tag : Tag) (items : List Node)
  | mapping (tag : Tag) (entries : List (Node × Node))
  /-- A collection around this place. -/
  | enclosing

namespace Node

def empty : Node :=
  scalar .null ""

def tag : Node → Tag
  | scalar t _ | sequence t _ | mapping t _ => t
  | enclosing => .other

def isMerge (n : Node) : Bool :=
  n.tag = .merge

mutual

/-- Whether some collection contains itself. -/
def isEndless : Node → Bool
  | scalar .. => false
  | sequence _ items => anyEndless items
  | mapping _ entries => anyEntryEndless entries
  | enclosing => true

/-- Whether some collection in a sequence contains itself. -/
def anyEndless : List Node → Bool
  | [] => false
  | n :: ns => n.isEndless || anyEndless ns

/-- Whether some collection in a mapping contains itself. -/
def anyEntryEndless : List (Node × Node) → Bool
  | [] => false
  | (k, v) :: es => k.isEndless || v.isEndless || anyEntryEndless es

end

end Node

end LoanLedger.Yaml
