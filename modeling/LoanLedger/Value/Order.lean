import LoanLedger.Value.Key

/-!
# The order of keys

* `Value.less? v w` : whether `v` comes before `w`, or why the two cannot be compared;
* `Clash.message` : the wording;
* `sortKeys? es` : entries in the order of their keys, by insertion into the sorted run at their
  front, or the first clash on the way.
-/

namespace LoanLedger

/-- Why two values have no order. -/
inductive Clash where
  | sorts (left right : String)
  | timeAndDate
  /-- One time has an offset and the other has none. -/
  | awareness
  | notANumber
  deriving Repr, DecidableEq

namespace Value

def isDecimalNaN : Value → Bool
  | decimal (.nan ..) => true
  | _ => false

mutual

/-- Whether the first value comes before the second one. -/
def less? : Value → Value → Except Clash Bool
  | .bytes a, .bytes b => .ok (decide (a < b))
  | .uuid a, .uuid b => .ok (a.number < b.number)
  | .date a, .date b => .ok (a.ordinal < b.ordinal)
  | .time a, .time b =>
    if a.isAware = b.isAware then .ok (a.instant < b.instant) else .error .awareness
  | .time _, .date _ | .date _, .time _ => .error .timeAndDate
  | .tuple a, .tuple b => lessAll? a b
  | v, w =>
    match v.text?, w.text?, v.number?, w.number? with
    | some s, some t, _, _ => .ok (decide (s < t))
    | _, _, some m, some n =>
      if v.isDecimalNaN || w.isDecimalNaN then .error .notANumber
      else .ok (m.compare? n == some .lt)
    | _, _, _, _ => .error (.sorts v.fullSort w.fullSort)

/-- Whether the first sequence comes before the second one: the first difference decides. -/
def lessAll? : List Value → List Value → Except Clash Bool
  | [], [] => .ok false
  | [], _ :: _ => .ok true
  | _ :: _, [] => .ok false
  | v :: vs, w :: ws => if v.sameKey w then lessAll? vs ws else less? v w

end

end Value

/-! ## Sorting -/

variable {α : Type}

/-- The length of the run at the front of a list, behind a key: later keys all come before the
earlier ones, or none of them do. -/
def runLength? (descending : Bool) : Value → List (Value × α) → Except Clash Nat
  | _, [] => .ok 1
  | k, e :: es => do
    if (← e.1.less? k) = descending then
      let n ← runLength? descending e.1 es
      pure (n + 1)
    else pure 1

/-- Splits the sorted run at the front off, turned to ascending order. -/
def splitRun? : List (Value × α) → Except Clash (List (Value × α) × List (Value × α))
  | e :: f :: es => do
    let descending ← f.1.less? e.1
    let n ← runLength? descending e.1 (f :: es)
    let run := (e :: f :: es).take n
    pure (if descending then run.reverse else run, (e :: f :: es).drop n)
  | es => .ok (es, [])

/-- The place of a key in sorted entries, found by halving the range between two places. -/
def place? (k : Value) (sorted : List (Value × α)) : Nat → Nat → Nat → Except Clash Nat
  | 0, low, _ => .ok low
  | fuel + 1, low, high =>
    if low < high then
      let middle := low + (high - low) / 2
      match sorted[middle]? with
      | none => .ok low
      | some e => do
        if ← k.less? e.1 then place? k sorted fuel low middle
        else place? k sorted fuel (middle + 1) high
    else .ok low

/-- Puts the entries into a sorted run one after the other, each behind its equals. -/
def insertAll? (sorted : List (Value × α)) : List (Value × α) → Except Clash (List (Value × α))
  | [] => .ok sorted
  | e :: es => do
    let n ← place? e.1 sorted (sorted.length + 1) 0 sorted.length
    insertAll? (sorted.take n ++ e :: sorted.drop n) es

def sortKeys? (es : List (Value × α)) : Except Clash (List (Value × α)) := do
  let (run, rest) ← splitRun? es
  insertAll? run rest

def Clash.message : Clash → String
  | .sorts left right =>
    "'<' not supported between instances of '" ++ left ++ "' and '" ++ right ++ "'"
  | .timeAndDate => "can't compare datetime.datetime to datetime.date"
  | .awareness => "can't compare offset-naive and offset-aware datetimes"
  | .notANumber => "[<class 'decimal.InvalidOperation'>]"

end LoanLedger
