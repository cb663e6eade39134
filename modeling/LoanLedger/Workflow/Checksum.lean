import LoanLedger.Digest
import LoanLedger.Json.OfValue

/-!
# Checksums of documents

* `canonicalKeys? v` : `v` with texts for all keys: a bare `on`, which is read as a truth value, gets
  its name back;
* `canonicalText? v` : the JSON of that, members sorted by name;
* `checksum? v` : its digest.
-/

namespace LoanLedger.Workflow

def keyName? : Value → Except Json.Error String
  | .bool true => .ok "on"
  | k => match k.label? with
    | .ok s => .ok s
    | .error _ => .error .numberTooLong

mutual

/-- The value with texts for all keys of maps within maps and lists. -/
def canonicalKeys? : Value → Except Json.Error Value
  | .map es => (canonicalEntries? es).map Value.ofPairs
  | .list vs => (canonicalList? vs).map .list
  | v => .ok v

/-- The values of a list with texts for all keys. -/
def canonicalList? : List Value → Except Json.Error (List Value)
  | [] => .ok []
  | v :: vs => do
    let v ← canonicalKeys? v
    let vs ← canonicalList? vs
    pure (v :: vs)

/-- Entries with texts for keys. -/
def canonicalEntries? : List (Value × Value) → Except Json.Error (List (Value × Value))
  | [] => .ok []
  | (k, v) :: es => do
    let name ← keyName? k
    let v ← canonicalKeys? v
    let es ← canonicalEntries? es
    pure ((.text name, v) :: es)

end

def canonicalText? (v : Value) : Except Json.Error String := do
  let v ← canonicalKeys? v
  let j ← Json.ofValue Json.document v
  pure (j.render Json.spaced)

def checksum? (v : Value) : Except Json.Error String :=
  (canonicalText? v).map digestOf

end LoanLedger.Workflow
