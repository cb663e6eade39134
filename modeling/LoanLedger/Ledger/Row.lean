import LoanLedger.Audit.Chain
import LoanLedger.Audit.Tag
import LoanLedger.Json.OfValue
import LoanLedger.Ledger.Column
import LoanLedger.Value.Pairs

/-!
# Rows of the ledger

* `Loan`, `Entry`, `Disbursement` : a loan and its state, a line of its audit log, a payout requested
  for it;
* `label` functions : the text that a row shows as;
* `Entry.move? e` : the states that the entry of a transition leads from and to;
* `Entry.content? e` : what the content hash of `e` covers, `Entry.payloadHash? e` that hash, and
  `Entry.sealed? e prevHash` the entry with its hashes behind an entry with hash `prevHash`;
* `stored?` functions : the row as it reads back from storage.
-/

namespace LoanLedger.Ledger

open Calendar (Timestamp)

/-! ## Loans -/

structure Loan where
  loanId : String
  founderId : String
  state : String
  definitionName : String
  definitionVersion : Int
  /-- Raised by one with every change of the row. -/
  version : Int
  deriving Repr, DecidableEq

def Loan.label (l : Loan) : String :=
  "<Loan " ++ l.loanId ++ " state=" ++ l.state ++ " v" ++ Numeral.ofInt l.version ++ ">"

/-! ## Disbursements -/

/-- The part of a loan that a payout covers. -/
inductive Tranche where
  | filingFee
  | remainingFunds
  deriving Repr, DecidableEq

namespace Tranche

def all : List Tranche := [filingFee, remainingFunds]

def word : Tranche → String
  | filingFee => "D1_FILING_FEE"
  | remainingFunds => "D2_REMAINING_FUNDS"

def ofWord? (s : String) : Option Tranche :=
  all.find? (·.word = s)

end Tranche

inductive Payment where
  | pending
  | paid
  deriving Repr, DecidableEq

def Payment.word : Payment → String
  | pending => "PENDING"
  | paid => "PAID"

structure Disbursement where
  id : String
  loanId : String
  kind : Tranche
  status : Payment
  createdAt : Timestamp
  paidAt : Option Timestamp
  deriving DecidableEq

namespace Disbursement

def label (d : Disbursement) : String :=
  "<DisbursementRecord " ++ d.id ++ " " ++ d.kind.word ++ " " ++ d.status.word ++ ">"

def isPaid (d : Disbursement) : Bool :=
  d.status = .paid

/-- The row as it reads back: its times in UTC. -/
def stored? (d : Disbursement) : Except Column.Error Disbursement := do
  let createdAt ← Column.keepTime? d.createdAt
  let paidAt ← d.paidAt.mapM Column.keepTime?
  pure { d with createdAt, paidAt }

end Disbursement

/-! ## Audit entries -/

/-- What is to be recorded of a loan, before it has a place in the log. -/
structure AuditRecord where
  timestamp : Timestamp
  actor : String
  event : Audit.Tag
  details : String
  attributes : Entries
  key : Option String

/-- A line of the audit log of a loan. -/
structure Entry where
  loanId : String
  seq : Int
  /-- When the event happened, as its sender says. -/
  timestamp : Timestamp
  recordedAt : Timestamp
  actor : String
  /-- The word of a tag, unless the row was tampered with. -/
  event : String
  details : String
  /-- A map, unless the row was tampered with. -/
  attributes : Value
  key : Option String
  payloadHash : String
  prevHash : Option String
  hash : String

/-- Why an entry has no content to be hashed. -/
inductive ContentError where
  | unknownTag (word : String)
  | attributes (e : PairError)
  | json (e : Json.Error)
  deriving Repr, DecidableEq

namespace Entry

def tag? (e : Entry) : Except ContentError Audit.Tag :=
  match Audit.Tag.ofWord? e.event with
  | some t => .ok t
  | none => .error (.unknownTag e.event)

/-- The attributes as a map; what counts as absent is an empty one. -/
def details? (e : Entry) : Except PairError Entries :=
  if e.attributes.isTruthy then e.attributes.toEntries? else .ok []

/-- The text that an attribute holds. -/
def text? (e : Entry) (name : String) : Option String :=
  match e.attributes with
  | .map es => match Entries.field? es name with
    | some (.text s) => some s
    | _ => none
  | _ => none

def move? (e : Entry) : Option (String × String) := do
  let a ← e.text? "from_state"
  let b ← e.text? "to_state"
  pure (a, b)

/-- What the content hash covers. -/
def content? (e : Entry) : Except ContentError Value := do
  let tag ← e.tag?
  let attributes ← e.details?.mapError .attributes
  pure (Value.record [
    ("timestamp", .time e.timestamp),
    ("recorded_at", .time e.recordedAt),
    ("actor", .text e.actor),
    ("event", .text tag.word),
    ("details", .text e.details),
    ("attributes", .map attributes),
    ("idempotency_key", Value.ofText? e.key)])

def contentText? (e : Entry) : Except ContentError String := do
  let v ← e.content?
  let j ← (Json.ofValue Json.canonical v).mapError .json
  pure (j.render Json.compact)

def payloadHash? (e : Entry) : Except ContentError String :=
  e.contentText?.map digestOf

def isGenesis (e : Entry) : Bool :=
  e.prevHash.isNone

def label? (e : Entry) : Except ContentError String := do
  let tag ← e.tag?
  pure ("<AuditLogEntry " ++ e.loanId ++ "#" ++ Numeral.ofInt e.seq ++ " " ++ tag.word ++ ">")

/-- The row as it reads back: its times in UTC, keys of maps as texts and sequences as lists. -/
def stored? (e : Entry) : Option Entry := do
  let timestamp ← (Column.keepTime? e.timestamp).toOption
  let recordedAt ← (Column.keepTime? e.recordedAt).toOption
  let j ← (Json.ofValue Json.storage e.attributes).toOption
  pure { e with timestamp, recordedAt, attributes := j.toValue }

def sealed? (e : Entry) (prevHash : Option String) : Except ContentError Entry := do
  let payloadHash ← e.payloadHash?
  let hash := Audit.chainHash e.loanId e.seq e.event payloadHash prevHash
  pure { e with payloadHash, prevHash, hash }

end Entry

end LoanLedger.Ledger
