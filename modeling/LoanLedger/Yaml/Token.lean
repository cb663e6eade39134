import LoanLedger.Yaml.Error

/-!
# Tokens

* `Token` : the parts of a document in the order of its text. Indentation is made explicit: blocks
  have a start and an end, and a key is announced, also where its colon alone makes it one.
-/

namespace LoanLedger.Yaml

/-- A line about the document before it begins. -/
inductive Directive where
  /-- The version of the notation; only its first number matters. -/
  | version (major : Nat)
  | handle (name lead : String)
  | other
  deriving Repr, DecidableEq

inductive WrittenTag where
  | whole (tag : String)
  | short (handle rest : String)
  deriving Repr, DecidableEq

/-- A part of a document. -/
inductive Token where
  | directive (d : Directive)
  | documentStart
  | documentEnd
  | blockSequence
  | blockMapping
  | blockEnd
  | flowSequence
  | flowSequenceEnd
  | flowMapping
  | flowMappingEnd
  | blockEntry
  | flowEntry
  | key
  | value
  | reference (name : String)
  | anchor (name : String)
  | tag (t : WrittenTag)
  | scalar (text : String) (isPlain : Bool)
  /-- The text goes wrong here. -/
  | fault (e : Error)
  deriving Repr, DecidableEq

end LoanLedger.Yaml
