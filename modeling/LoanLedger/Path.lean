/-!
# Paths

* `Path.normal s` : a path without empty parts and parts that stay where they are.
-/

namespace LoanLedger.Path

def parts : List Char → List (List Char)
  | [] => [[]]
  | c :: cs =>
    match parts cs with
    | [] => [[c]]
    | p :: ps => if c = '/' then [] :: p :: ps else (c :: p) :: ps

/-- The slashes that a path begins with: two are kept, more count as one. -/
def root : List Char → List Char
  | '/' :: '/' :: '/' :: _ => ['/']
  | '/' :: '/' :: _ => ['/', '/']
  | '/' :: _ => ['/']
  | _ => []

/-- The path without empty parts and parts that stay where they are. -/
def normal (s : String) : String :=
  let cs := s.toList
  let kept := (parts cs).filter fun p => p ≠ [] && p ≠ ['.']
  match root cs ++ ['/'].intercalate kept with
  | [] => "."
  | r => String.ofList r

end LoanLedger.Path
