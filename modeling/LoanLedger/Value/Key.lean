import LoanLedger.Value.Basic

/-!
# Values as keys

* `Value.Number` : a fraction, an infinity or not-a-number, whatever sort it came from;
* `Value.number? v` : the number that `v` is, if it is one;
* `Value.Number.compare? a b` : their order, undefined for not-a-number;
* `Value.sameKey v w` : whether two values name the same entry of a map: numbers of all sorts by
  their value, an audit tag like the text of its word, times by their instant;
* `Entries.get? es k` : the value under a key;
* `Entries.put es k v` : a new entry at the end, or a new value under the key that is there;
* `Value.ofPairs ps` : the map that arises from putting pairs in one after the other.
-/

namespace LoanLedger.Value

inductive Number where
  | nan
  | infinity (negative : Bool)
  | ratio (num : Int) (den : Nat)

/-- The number that a value is. Truth values count as one and zero. -/
def number? : Value → Option Number
  | bool b => some (.ratio (if b then 1 else 0) 1)
  | int n => some (.ratio n 1)
  | float .nan => some .nan
  | float (.infinity neg) => some (.infinity neg)
  | float x => x.toRatio?.map fun r => .ratio r.1 r.2
  | decimal (.nan ..) => some .nan
  | decimal (.infinity neg) => some (.infinity neg)
  | decimal d => d.toRatio?.map fun r => .ratio r.1 r.2
  | _ => none

def Number.compare? : Number → Number → Option Ordering
  | .nan, _ | _, .nan => none
  | .infinity a, .infinity b => some (compare b.toNat a.toNat)
  | .infinity a, .ratio .. => some (if a then .lt else .gt)
  | .ratio .., .infinity b => some (if b then .gt else .lt)
  | .ratio a b, .ratio c d => some (compare (a * d) (c * b))

end LoanLedger.Value

namespace LoanLedger

mutual

/-- Whether two values name the same entry of a map. -/
def Value.sameKey : Value → Value → Bool
  | .null, .null => true
  | .bytes a, .bytes b => a == b
  | .uuid a, .uuid b => a == b
  | .date a, .date b => a == b
  | .time a, .time b =>
    if a.isAware then b.isAware && a.instant == b.instant
    else !b.isAware && a.instant == b.instant
  | .tuple a, .tuple b => Value.sameKeys a b
  | v, w =>
    match v.text?, w.text?, v.number?, w.number? with
    | some s, some t, _, _ => s == t
    | _, _, some m, some n => m.compare? n == some .eq
    | _, _, _, _ => false

/-- Whether the values of two sequences are the same keys in turn. -/
def Value.sameKeys : List Value → List Value → Bool
  | [], [] => true
  | v :: vs, w :: ws => Value.sameKey v w && Value.sameKeys vs ws
  | _, _ => false

end

mutual

/-- Whether a value can be a key: no sequence, set or map that may change. -/
def Value.isKey : Value → Bool
  | .list _ | .set _ | .map _ => false
  | .tuple vs => Value.areKeys vs
  | _ => true

def Value.areKeys : List Value → Bool
  | [] => true
  | v :: vs => Value.isKey v && Value.areKeys vs

end

/-- The entries of a map, in the order in which their keys were put in. -/
abbrev Entries := List (Value × Value)

namespace Entries

def get? : Entries → Value → Option Value
  | [], _ => none
  | (k', v) :: es, k => if k'.sameKey k then some v else get? es k

def field? (es : Entries) (name : String) : Option Value :=
  es.get? (.text name)

/-- The value under a text key, null when there is none. -/
def field (es : Entries) (name : String) : Value :=
  (es.field? name).getD .null

/-- Puts an entry in: a key that is there keeps its place and its spelling. -/
def put : Entries → Value → Value → Entries
  | [], k, v => [(k, v)]
  | (k', v') :: es, k, v => if k'.sameKey k then (k', v) :: es else (k', v') :: put es k v

def ofPairs (ps : List (Value × Value)) : Entries :=
  ps.foldl (fun es p => es.put p.1 p.2) []

end Entries

def Value.ofPairs (ps : List (Value × Value)) : Value :=
  .map (Entries.ofPairs ps)

/-- The set of some values, each kept once. -/
def Value.ofElements (vs : List Value) : Value :=
  .set (vs.foldl (fun kept v => if kept.any (·.sameKey v) then kept else kept ++ [v]) [])

/-- The map with text keys. -/
def Value.record (fields : List (String × Value)) : Value :=
  .map (fields.map fun f => (.text f.1, f.2))

end LoanLedger
