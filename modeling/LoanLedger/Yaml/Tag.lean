import LoanLedger.Yaml.Number
import LoanLedger.Yaml.Time

/-!
# Tags

* `Tag` : what a node is meant to be; `Tag.ofText s` : the meaning of a written tag;
* `truthWords` : the words for truth values;
* `Tag.ofForm s` : what a plain scalar is meant to be, by its form alone.
-/

namespace LoanLedger.Yaml

/-- What a node is meant to be. -/
inductive Tag where
  | null
  | bool
  | int
  | float
  | binary
  | timestamp
  /-- A sequence of pairs without repetition, in order. -/
  | omap
  | pairs
  | set
  | str
  | seq
  | map
  /-- The key whose value is merged into the mapping. -/
  | merge
  /-- The key whose value stands for the mapping. -/
  | value
  /-- A tag without a meaning. -/
  | other
  deriving Repr, DecidableEq

namespace Tag

def named : List (String × Tag) := [
  ("null", null), ("bool", bool), ("int", int), ("float", float), ("binary", binary),
  ("timestamp", timestamp), ("omap", omap), ("pairs", pairs), ("set", set), ("str", str),
  ("seq", seq), ("map", map), ("merge", merge), ("value", value)]

/-- What stands before the short names in whole tags. -/
def lead : String := "tag:yaml.org,2002:"

def ofText (s : String) : Tag :=
  ((named.map fun t => (lead ++ t.1, t.2)).lookup s).getD other

end Tag

def truthWords : List (String × Bool) := [
  ("yes", true), ("no", false), ("true", true), ("false", false), ("on", true), ("off", false)]

/-- A word in small letters, with a capital, and in capitals. -/
def spellings (word : String) : List String :=
  [word, word.capitalize, word.toUpper]

/-- The text without a line break at its end. -/
def dropFinalBreak (cs : List Char) : List Char :=
  if cs.getLast? = some '\n' then cs.dropLast else cs

/-- What a plain scalar is meant to be. A line break at its end does not matter. -/
def Tag.ofForm (s : String) : Tag :=
  let cs := dropFinalBreak s.toList
  let word := String.ofList cs
  if s = "" || word = "~" || (spellings "null").contains word then .null
  else if truthWords.any fun w => (spellings w.1).contains word then .bool
  else if isFloatForm cs then .float
  else if isIntForm cs then .int
  else if isTimeForm cs then .timestamp
  else if word = "<<" then .merge
  else if word = "=" then .value
  else .str

end LoanLedger.Yaml
