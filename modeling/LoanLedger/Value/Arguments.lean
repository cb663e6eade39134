import LoanLedger.Value.Basic

/-!
# Particulars told in order or by name

* `Signature` : what can be told to make a thing, and what must be;
* `Signature.bind? s args named` : the values for all names of `s`, null for what is left out;
* `ArgumentError.message` : what is wrong with the particulars.
-/

namespace LoanLedger

/-- The names of what is told to make a thing. -/
structure Signature where
  owner : String
  required : List String
  free : List String
  deriving Repr, DecidableEq

/-- Why particulars do not make a thing. -/
inductive ArgumentError where
  /-- Nothing can be told by name. -/
  | noNames (owner : String)
  | unknownName (owner name : String)
  /-- The same particular is told twice. -/
  | repeated (owner name : String)
  | tooMany (s : Signature) (count : Nat)
  | missing (owner : String) (names : List String)
  deriving Repr, DecidableEq

namespace ArgumentError

/-- Quoted names with commas, and a word before the last. -/
def enumerate (names : List String) : String :=
  match names.map (fun n => "'" ++ n ++ "'") with
  | [a, b] => a ++ " and " ++ b
  | ns =>
    match ns.reverse with
    | a :: b :: r => ", ".intercalate (b :: r).reverse ++ ", and " ++ a
    | r => ", ".intercalate r

/-- The wording. The thing that is made counts as the first of the particulars. -/
def message : ArgumentError → String
  | noNames owner => owner ++ "() takes no keyword arguments"
  | unknownName owner name =>
    owner ++ ".__init__() got an unexpected keyword argument '" ++ name ++ "'"
  | repeated owner name =>
    owner ++ ".__init__() got multiple values for argument '" ++ name ++ "'"
  | tooMany s count =>
    let low := s.required.length + 1
    let takes := if s.free.isEmpty then low.repr
      else "from " ++ low.repr ++ " to " ++ (low + s.free.length).repr
    s.owner ++ ".__init__() takes " ++ takes ++ " positional arguments but " ++
      (count + 1).repr ++ " were given"
  | missing owner names =>
    owner ++ ".__init__() missing " ++ names.length.repr ++ " required positional argument" ++
      (if names.length = 1 then "" else "s") ++ ": " ++ enumerate names

end ArgumentError

namespace Signature

/-- Adds a named particular to those told so far. -/
def bindName? (s : Signature) (told : List (String × Value)) (n : String × Value) :
    Except ArgumentError (List (String × Value)) :=
  if !(s.required ++ s.free).contains n.1 then .error (.unknownName s.owner n.1)
  else if told.any (·.1 = n.1) then .error (.repeated s.owner n.1)
  else .ok (told ++ [n])

/-- The particulars by name, from those told in order and those told by name. -/
def bind? (s : Signature) (args : List Value) (named : List (String × Value)) :
    Except ArgumentError (List (String × Value)) := do
  let names := s.required ++ s.free
  let told ← named.foldlM s.bindName? (names.zip args)
  if names.length < args.length then .error (.tooMany s args.length)
  let absent := s.required.filter fun n => !told.any (·.1 = n)
  if absent.isEmpty then pure told else .error (.missing s.owner absent)

end Signature

end LoanLedger
