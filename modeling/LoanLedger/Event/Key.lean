import LoanLedger.Event.Basic

/-!
# Idempotency keys

* `Key.join loan type identity` : the three texts with colons between them;
* `Key.split? key` : the texts before the first colon, before the second, and behind it;
* `Event.key e` : the key under which the transition of `e` is recorded.
-/

namespace LoanLedger

namespace Key

def join (loanId eventType identity : String) : String :=
  loanId ++ ":" ++ eventType ++ ":" ++ identity

/-- The characters before the first colon and those behind it. -/
def cut? : List Char → Option (List Char × List Char)
  | [] => none
  | c :: cs => if c = ':' then some ([], cs) else (cut? cs).map fun p => (c :: p.1, p.2)

/-- The three parts of a key; the last may hold colons of its own. -/
def split? (key : String) : Option (String × String × String) := do
  let (loanId, rest) ← cut? key.toList
  let (eventType, identity) ← cut? rest
  pure (String.ofList loanId, String.ofList eventType, String.ofList identity)

/-- The report of a key without three parts. -/
def malformed (key : String) : Report :=
  .plain "ValueError" ("Invalid idempotency key format: " ++ key)

end Key

def Event.key (e : Event) : String :=
  Key.join e.loanId e.type e.identity

end LoanLedger
