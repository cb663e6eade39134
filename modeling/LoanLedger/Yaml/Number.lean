import LoanLedger.Binary64.Basic
import LoanLedger.Binary64.Text
import LoanLedger.Yaml.Error

/-!
# Numbers in documents

* `isIntForm`, `isFloatForm` : the written forms of numbers: whole ones to the bases 2, 8, 10, 16 and
  60, fractions to the bases 10 and 60;
* `intOf s`, `floatOf s` : the number that a scalar writes which is meant to be one; a scalar that is
  tagged as a number may have other forms, too.

Digits may be grouped with underscores.
-/

namespace LoanLedger.Yaml

/-- Splits at a character. -/
def splitAtChar (c : Char) : List Char → List (List Char)
  | [] => [[]]
  | d :: ds =>
    if d = c then [] :: splitAtChar c ds
    else match splitAtChar c ds with
      | part :: parts => (d :: part) :: parts
      | [] => [[d]]

/-! ## Forms -/

def isGroupDigit (c : Char) : Bool :=
  c.isDigit || c = '_'

/-- Whether the characters are one or more of a sort. -/
def isRun (p : Char → Bool) (cs : List Char) : Bool :=
  !cs.isEmpty && cs.all p

/-- Whether a place of a number to the base sixty has one digit, or two below sixty. -/
def isSixty : List Char → Bool
  | [a] => a.isDigit
  | [a, b] => '0' ≤ a && a ≤ '5' && b.isDigit
  | _ => false

/-- Whether a run of digits begins with one of a sort and goes on with digits and underscores. -/
def isGrouped (first : Char → Bool) : List Char → Bool
  | c :: cs => first c && cs.all isGroupDigit
  | [] => false

/-- Whether a text has the form of a whole number. -/
def isIntForm (cs : List Char) : Bool :=
  match (Numeral.splitSign cs).2 with
  | '0' :: 'b' :: ds => isRun (fun c => c = '0' || c = '1' || c = '_') ds
  | '0' :: 'x' :: ds => isRun (fun c => (Text.hexValue? c).isSome || c = '_') ds
  | '0' :: ds => ds.all fun c => ('0' ≤ c && c ≤ '7') || c = '_'
  | ds => match splitAtChar ':' ds with
    | whole :: places => isGrouped Char.isDigit whole && places.all isSixty
    | [] => false

/-- Whether the exponent of a fraction, if it has one, has a sign and digits. -/
def isExponent : List Char → Bool
  | [] => true
  | e :: s :: ds => (e = 'e' || e = 'E') && (s = '-' || s = '+') && isRun Char.isDigit ds
  | _ => false

/-- Whether digits come, and perhaps an exponent. -/
def isDigitForm (cs : List Char) : Bool :=
  isGrouped Char.isDigit (cs.takeWhile isGroupDigit) && isExponent (cs.dropWhile isGroupDigit)

/-- Whether digits, a point and digits come, and perhaps an exponent. -/
def isPointForm (cs : List Char) : Bool :=
  match cs.dropWhile isGroupDigit with
  | '.' :: ds => isGrouped Char.isDigit (cs.takeWhile isGroupDigit) &&
    isExponent (ds.dropWhile isGroupDigit)
  | _ => false

/-- Whether places to the base sixty come, the last one with a point. -/
def isSixtyPointForm (cs : List Char) : Bool :=
  match cs.dropWhile (· ≠ '.') with
  | '.' :: ds =>
    match splitAtChar ':' (cs.takeWhile (· ≠ '.')) with
    | whole :: place :: places =>
      isGrouped Char.isDigit whole && (place :: places).all isSixty && ds.all isGroupDigit
    | _ => false
  | _ => false

/-- Whether a text has the form of a fraction. An infinity may have a sign, and so may a number that
does not begin with its point. -/
def isFloatForm (cs : List Char) : Bool :=
  let unsigned := (Numeral.splitSign cs).2
  match cs with
  | '.' :: ds => [".nan", ".NaN", ".NAN"].contains (String.ofList cs) || isInfinity cs ||
    isDigitForm ds
  | _ => isInfinity unsigned || isPointForm unsigned || isSixtyPointForm unsigned
where
  isInfinity (cs : List Char) : Bool :=
    [".inf", ".Inf", ".INF"].contains (String.ofList cs)

/-! ## Values -/

/-- The whole number written to the base ten. -/
def decimalOf (cs : List Char) : Except Error Int :=
  let s := String.ofList cs
  match Numeral.toInt? s with
  | .ok n => .ok n
  | .error (.textTooLong n) => .error (.integerTooLong n)
  | .error _ => .error (.noInteger 10 s)

/-- The digits behind the letter that announces the base, if it stands there. -/
def dropBaseMark (small capital : Char) : List Char → List Char
  | '0' :: c :: cs => if c = small || c = capital then cs else '0' :: c :: cs
  | cs => cs

/-- The whole number written to a base up to sixteen other than ten, the letter that may announce
the base given. -/
def radixOf (base : Nat) (small capital : Char) (cs : List Char) : Except Error Int :=
  let (neg, ds) := Numeral.splitSign (Numeral.trimPlain (Numeral.plain cs))
  let digit? (c : Char) : Option Nat := (Text.hexValue? c).filter (· < base)
  match (dropBaseMark small capital ds).mapM digit? with
  | some (d :: ds) =>
    let n : Nat := (d :: ds).foldl (fun n d => base * n + d) 0
    .ok (if neg then -(n : Int) else n)
  | _ => .error (.noInteger base (String.ofList cs))

/-- The whole number written by a scalar without its sign. -/
def unsignedOf (cs : List Char) : Except Error Int :=
  match cs with
  | [] => .error .emptyNumber
  | ['0'] => .ok 0
  | '0' :: 'b' :: ds => radixOf 2 'b' 'B' ds
  | '0' :: 'x' :: ds => radixOf 16 'x' 'X' ds
  | '0' :: _ => radixOf 8 'o' 'O' cs
  | _ =>
    if cs.contains ':' then do
      let places ← (splitAtChar ':' cs).mapM decimalOf
      pure (places.foldl (fun n d => 60 * n + d) 0)
    else decimalOf cs

/-- The whole number that a scalar writes. -/
def intOf (s : String) : Except Error Int :=
  let cs := s.toList.filter (· ≠ '_')
  if cs.isEmpty then .error .emptyNumber
  else
    let (neg, cs) := Numeral.splitSign cs
    (unsignedOf cs).map fun n => if neg then -n else n

def fractionOf (cs : List Char) : Except Error Binary64 :=
  match Binary64.read? (String.ofList cs) with
  | some x => .ok x
  | none => .error (.noFraction (String.ofList cs))

/-- The sum of places to the base sixty, the last one first; each place is rounded, and so is each
sum. The worth of the first place comes with it. -/
def sixtySum : (worth : Int) → Binary64 → List Binary64 → Except Error Binary64
  | _, sum, [] => .ok sum
  | worth, sum, x :: xs =>
    match Binary64.ofInt? worth with
    | some w => sixtySum (60 * worth) (sum.add (x.mul w)) xs
    | none => .error .placeTooLarge

/-- The fraction that a scalar writes. -/
def floatOf (s : String) : Except Error Binary64 :=
  let cs := (s.toList.filter (· ≠ '_')).map Char.toLower
  if cs.isEmpty then .error .emptyNumber
  else do
    let (neg, cs) := Numeral.splitSign cs
    let x ←
      if cs = ".inf".toList then pure (.infinity false)
      else if cs = ".nan".toList then pure .nan
      else if cs.contains ':' then do
        let places ← (splitAtChar ':' cs).mapM fractionOf
        sixtySum 1 (.finite false 0 (-1074)) places.reverse
      else fractionOf cs
    pure (if neg then x.negate else x)

end LoanLedger.Yaml
