import LoanLedger.Yaml.Node
import LoanLedger.Yaml.Token

/-!
# From tokens to nodes

* `Reading` : tokens left and anchors known;
* `Node.ofTokens? ts` : the node of the one document that the tokens make, nothing where there are no
  tokens.

The functions between go along the forms of the notation; `fuel` bounds their nesting.
-/

namespace LoanLedger.Yaml

structure Reading where
  tokens : List Token
  /-- The nodes with an anchor. A collection that is not complete is known as one around. -/
  anchors : List (String × Node)
  handles : List (String × String)

/-- A step in the reading of a document. -/
abbrev Read := StateT Reading (Except Error)

namespace Read

def peek? : Read (Option Token) := do
  return (← get).tokens.head?

def skip : Read Unit :=
  modify fun r => { r with tokens := r.tokens.tail }

/-- Fails at the next token, for the reason that it gives if it is a fault. -/
def fail {α : Type} : Read α := do
  match ← peek? with
  | some (.fault e) => throw e
  | _ => throw .malformed

/-- Passes a token if it comes next. -/
def accept (t : Token) : Read Bool := do
  if (← peek?) = some t then skip; return true else return false

def sees (ts : List Token) : Read Bool := do
  return (← peek?).any ts.contains

/-! ## Anchors, tags and scalars -/

def refer (name : String) : Read Node := do
  match (← get).anchors.lookup name with
  | some n => return n
  | none => throw .malformed

def keep (anchor : Option String) (n : Node) : Read Unit :=
  match anchor with
  | some name => modify fun r => { r with anchors := (name, n) :: r.anchors }
  | none => pure ()

def checkNew (anchor : Option String) : Read Unit := do
  let known := (← get).anchors
  if anchor.any fun name => (known.lookup name).isSome then throw .malformed

def anchor? : Read (Option String) := do
  match ← peek? with
  | some (.anchor name) => skip; return some name
  | _ => return none

def tag? : Read (Option WrittenTag) := do
  match ← peek? with
  | some (.tag t) => skip; return some t
  | _ => return none

/-- The anchor and the tag of a node, in either order. -/
def properties : Read (Option String × Option WrittenTag) := do
  match ← anchor? with
  | some name => return (some name, ← tag?)
  | none =>
    match ← tag? with
    | some t => return (← anchor?, some t)
    | none => return (none, none)

def wholeTag : WrittenTag → Read String
  | .whole s => return s
  | .short handle rest => do
    match (← get).handles.lookup handle with
    | some lead => return lead ++ rest
    | none => throw .malformed

/-- What a node is meant to be: what its tag says, unless there is none or it says nothing. -/
def meaning (tag : Option String) (untagged : Tag) : Tag :=
  match tag with
  | none => untagged
  | some s => if s = "!" then untagged else .ofText s

/-- What a scalar is meant to be. An empty tag makes any scalar plain. -/
def scalarMeaning (tag : Option String) (isPlain : Bool) (text : String) : Tag :=
  meaning tag (if isPlain || tag.isSome then .ofForm text else .str)

/-- Nothing written: an empty scalar behind an anchor or a tag, a fault elsewhere. -/
def nothing (anchor tag : Option String) : Read Node :=
  if anchor.isSome || tag.isSome then return .scalar (scalarMeaning tag true "") ""
  else fail

/-! ## Collections -/

def entryEnds : List Token := [.key, .value, .blockEnd]

/-- Where a node stands: blocks may begin in a block, and where an entry of a mapping is due also a
sequence without indentation. -/
inductive Place where
  | flow
  | block
  | entry
  deriving DecidableEq

mutual

/-- A node. -/
def node : Nat → Place → Read Node
  | 0, _ => fail
  | fuel + 1, place => do
    if let some (.reference name) ← peek? then
      skip
      return ← refer name
    let (anchor, written) ← properties
    let tag ← written.mapM wholeTag
    let n ← content fuel place anchor tag
    keep anchor n
    return n

/-- A node behind its anchor and tag. -/
def content : Nat → Place → Option String → Option String → Read Node
  | 0, _, _, _ => fail
  | fuel + 1, place, anchor, tag => do
    let sequenceTag := meaning tag .seq
    let mappingTag := meaning tag .map
    checkNew anchor
    match ← peek? with
    | some (.scalar text isPlain) =>
      skip
      return .scalar (scalarMeaning tag isPlain text) text
    | some .flowSequence =>
      skip
      keep anchor .enclosing
      return .sequence sequenceTag (← flowItems fuel true)
    | some .flowMapping =>
      skip
      keep anchor .enclosing
      return .mapping mappingTag (← flowEntries fuel true)
    | some .blockEntry =>
      if place = .entry then
        keep anchor .enclosing
        return .sequence sequenceTag (← flatItems fuel)
      else nothing anchor tag
    | some .blockSequence =>
      if place = .flow then nothing anchor tag
      else
        skip
        keep anchor .enclosing
        return .sequence sequenceTag (← blockItems fuel)
    | some .blockMapping =>
      if place = .flow then nothing anchor tag
      else
        skip
        keep anchor .enclosing
        return .mapping mappingTag (← blockEntries fuel)
    | _ => nothing anchor tag

/-- The elements of a block, up to its end. -/
def blockItems : Nat → Read (List Node)
  | 0 => fail
  | fuel + 1 => do
    if ← accept .blockEntry then
      let n ← if ← sees [.blockEntry, .blockEnd] then pure Node.empty
        else node fuel .block
      return n :: (← blockItems fuel)
    else if ← accept .blockEnd then return []
    else fail

/-- The elements of a sequence without indentation. -/
def flatItems : Nat → Read (List Node)
  | 0 => fail
  | fuel + 1 => do
    if ← accept .blockEntry then
      let n ← if ← sees (.blockEntry :: entryEnds) then pure Node.empty
        else node fuel .block
      return n :: (← flatItems fuel)
    else return []

/-- The entries of a block, up to its end. -/
def blockEntries : Nat → Read (List (Node × Node))
  | 0 => fail
  | fuel + 1 => do
    if ← accept .blockEnd then return []
    let hasKey ← accept .key
    if !hasKey then fail
    let k ← if ← sees entryEnds then pure Node.empty else node fuel .entry
    let v ← blockValue fuel
    return (k, v) :: (← blockEntries fuel)

/-- The value of an entry of a block, nothing if no colon comes. -/
def blockValue : Nat → Read Node
  | 0 => fail
  | fuel + 1 => do
    if ← accept .value then
      if ← sees entryEnds then return .empty else node fuel .entry
    else return .empty

/-- The value of an entry within brackets that a token closes, nothing if no colon comes. -/
def flowValue : Nat → Token → Read Node
  | 0, _ => fail
  | fuel + 1, closing => do
    if ← accept .value then
      if ← sees [.flowEntry, closing] then return .empty else node fuel .flow
    else return .empty

/-- An entry within brackets, behind the start of its key. -/
def flowEntry : Nat → Token → Read (Node × Node)
  | 0, _ => fail
  | fuel + 1, closing => do
    let k ← if ← sees [.value, .flowEntry, closing] then pure Node.empty
      else node fuel .flow
    return (k, ← flowValue fuel closing)

/-- The elements between brackets, separated by commas. A key makes an element a mapping. -/
def flowItems : Nat → Bool → Read (List Node)
  | 0, _ => fail
  | fuel + 1, isFirst => do
    if ← accept .flowSequenceEnd then return []
    if !isFirst then
      let separated ← accept .flowEntry
      if !separated then fail
    if ← accept .key then
      let e ← flowEntry fuel .flowSequenceEnd
      return .mapping .map [e] :: (← flowItems fuel false)
    else if ← accept .flowSequenceEnd then return []
    else
      let n ← node fuel .flow
      return n :: (← flowItems fuel false)

/-- The entries between braces, separated by commas. An entry without a colon has no value. -/
def flowEntries : Nat → Bool → Read (List (Node × Node))
  | 0, _ => fail
  | fuel + 1, isFirst => do
    if ← accept .flowMappingEnd then return []
    if !isFirst then
      let separated ← accept .flowEntry
      if !separated then fail
    if ← accept .key then
      let e ← flowEntry fuel .flowMappingEnd
      return e :: (← flowEntries fuel false)
    else if ← accept .flowMappingEnd then return []
    else
      let k ← node fuel .flow
      return (k, .empty) :: (← flowEntries fuel false)

end

/-! ## Documents -/

/-- Whether a token cannot begin the content of a document that has a mark at its start. -/
def isOutside : Token → Bool
  | .directive _ | .documentStart | .documentEnd => true
  | _ => false

def commonHandles : List (String × String) := [("!", "!"), ("!!", Tag.lead)]

/-- Reads the directives before a document. Only one may tell the version, which is to be 1, and only
one may tell what a handle stands for. -/
def directives : (versioned : Bool) → List (String × String) → List Token →
    Except Error (List (String × String) × List Token)
  | versioned, handles, .directive d :: ts =>
    match d with
    | .version major =>
      if versioned || major ≠ 1 then .error .malformed else directives true handles ts
    | .handle name lead =>
      if (handles.lookup name).isSome then .error .malformed
      else directives versioned ((name, lead) :: handles) ts
    | .other => directives versioned handles ts
  | _, handles, ts => .ok (handles ++ commonHandles, ts)

/-- Reads the start of a document that is marked, with its directives. -/
def start : Read Unit := do
  let (handles, tokens) ← directives false [] (← get).tokens
  set (Reading.mk tokens [] handles)
  let isMarked ← accept .documentStart
  if !isMarked then fail

/-- The content of a document, and the end of the text behind it: no other document may begin. -/
def document (fuel : Nat) (isMarked : Bool) : Read Node := do
  if isMarked then start
  let isEmpty := (← peek?).all isOutside
  let n ← if isMarked && isEmpty then pure Node.empty else node fuel .block
  modify fun r => { r with tokens := r.tokens.dropWhile (· = .documentEnd) }
  if (← peek?).isSome then
    start
    throw .malformed
  return n

end Read

def Node.ofTokens? (ts : List Token) : Except Error (Option Node) := do
  let isMarked := match ts with
    | .directive _ :: _ | .documentStart :: _ => true
    | _ => false
  if ts.isEmpty then return none
  else return some (← (Read.document (4 * ts.length + 4) isMarked).run' ⟨ts, [], Read.commonHandles⟩)

end LoanLedger.Yaml
