import LoanLedger.Report
import LoanLedger.Text.Units

/-!
# Messages with arguments

* `Pattern.fill? s args` : the message `s` with its places filled: `%s` by labels, `%d` by whole numbers, `%r` by quoted
  values, `%c` by one code point, which may be a surrogate, `%%` by a percent sign; without arguments the message stands
  as it is.

Flags, widths and places for other forms of numbers are left out.
-/

namespace LoanLedger.Log.Pattern

open Text (Point Points)

/-- Why a message cannot be filled. -/
inductive Error where
  | tooFew
  | tooMany
  /-- The message ends behind a percent sign. -/
  | incomplete
  | unknownPlace (c : Char) (position : Nat)
  /-- A whole number was to be written, but the value is of this sort. -/
  | notNumber (place : Char) (sort : String)
  | notFinite (what : String)
  | numberTooLong
  | notCharacter
  | noPoint

/-- The report of a message that cannot be filled. -/
def Error.report : Error → Report
  | .tooFew => .plain "TypeError" "not enough arguments for format string"
  | .tooMany => .plain "TypeError" "not all arguments converted during string formatting"
  | .incomplete => .plain "ValueError" "incomplete format"
  | .unknownPlace c n =>
    .plain "ValueError" ("unsupported format character '" ++ String.ofList [c] ++ "' (0x" ++
      String.ofList (Nat.toDigits 16 c.toNat) ++ ") at index " ++ n.repr)
  | .notNumber c sort =>
    .plain "TypeError"
      ("%" ++ String.ofList [c] ++ " format: a real number is required, not " ++ sort)
  | .notFinite "infinity" => .plain "OverflowError" "cannot convert float infinity to integer"
  | .notFinite what => .plain "ValueError" ("cannot convert float " ++ what ++ " to integer")
  | .numberTooLong => .plain "ValueError" tooLongToWrite
  | .notCharacter => .plain "TypeError" "%c requires int or char"
  | .noPoint => .plain "OverflowError" "%c arg not in range(0x110000)"

/-- The whole number that a value is written as. -/
def whole? (place : Char) : Value → Except Error Int
  | .bool b => .ok (if b then 1 else 0)
  | .int n => .ok n
  | .float .nan => .error (.notFinite "NaN")
  | .float (.infinity _) => .error (.notFinite "infinity")
  | .float x => .ok (x.truncate?.getD 0)
  | .decimal d => match d.truncate? with
    | some n => .ok n
    | none => .error (.notFinite "infinity")
  | v => .error (.notNumber place v.sort)

def pointOf? (n : Int) : Except Error Point :=
  if h : 0 ≤ n ∧ n < 0x110000 then .ok ⟨n.toNat, by omega⟩ else .error .noPoint

/-- The code point that a value is written as. -/
def point? : Value → Except Error Point
  | .bool b => pointOf? (if b then 1 else 0)
  | .int n => pointOf? n
  | .text s => match Points.ofString s with
    | [p] => .ok p
    | _ => .error .notCharacter
  | _ => .error .notCharacter

/-- The text that fills a place. -/
def filled? (place : Char) (v : Value) : Except Error (Option Points) :=
  let text (r : Except Numeral.Error String) : Except Error (Option Points) :=
    match r with
    | .ok s => .ok (some (.ofString s))
    | .error _ => .error .numberTooLong
  if place = 's' then text v.label?
  else if place = 'r' then text v.quoted?
  else if place = 'd' || place = 'i' then do
    let n ← whole? place v
    text (Numeral.ofInt? n)
  else if place = 'c' then do
    let p ← point? v
    pure (some [p])
  else .ok none

/-- Fills the places from a position on. -/
def fillFrom? (position : Nat) : List Char → List Value → Except Error Points
  | [], [] => .ok []
  | [], [.map _] => .ok []
  | [], _ :: _ => .error .tooMany
  | '%' :: [], _ => .error .incomplete
  | '%' :: '%' :: cs, vs => do
    let r ← fillFrom? (position + 2) cs vs
    pure (.ofChar '%' :: r)
  | '%' :: c :: _, [] =>
    if c = 's' || c = 'r' || c = 'd' || c = 'i' || c = 'c' then .error .tooFew
    else .error (.unknownPlace c (position + 1))
  | '%' :: c :: cs, v :: vs => do
    match ← filled? c v with
    | none => throw (.unknownPlace c (position + 1))
    | some s => do
      let r ← fillFrom? (position + 2) cs vs
      pure (s ++ r)
  | c :: cs, vs => do
    let r ← fillFrom? (position + 1) cs vs
    pure (.ofChar c :: r)

def fill? (message : String) (args : List Value) : Except Error Points :=
  if args.isEmpty then .ok (.ofString message)
  else fillFrom? 0 message.toList args

end LoanLedger.Log.Pattern
