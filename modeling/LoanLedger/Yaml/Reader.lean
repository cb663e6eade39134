import LoanLedger.Yaml.Node.OfTokens
import LoanLedger.Yaml.Node.Value
import LoanLedger.Yaml.Token.Layout

/-!
# Reading documents

* `Yaml.read? s` : the value of the one document that `s` writes, null if there is none.
-/

namespace LoanLedger.Yaml

def read? (s : String) : Except Error Value := do
  match ← Node.ofTokens? (Token.ofText s) with
  | some n => n.value?
  | none => pure .null

end LoanLedger.Yaml
