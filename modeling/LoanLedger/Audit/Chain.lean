import LoanLedger.Digest
import LoanLedger.Numeral.Basic

/-!
# The hash chain of an audit log

* `chainText loan seq event payload prev` : what the hash of an entry is taken of: its place, its
  content and the hash before it;
* `chainHash` : the digest of that.
-/

namespace LoanLedger.Audit

/-- What stands for the hash before the first entry. -/
def genesis : String := "GENESIS"

/-- The text that the hash of an entry is taken of. An empty hash counts as none. -/
def chainText (loanId : String) (seq : Int) (event payloadHash : String) (prev : Option String) :
    String :=
  let before := match prev with
    | some h => if h = "" then genesis else h
    | none => genesis
  "|".intercalate [loanId, Numeral.ofInt seq, event, payloadHash, before]

def chainHash (loanId : String) (seq : Int) (event payloadHash : String) (prev : Option String) :
    String :=
  digestOf (chainText loanId seq event payloadHash prev)

end LoanLedger.Audit
