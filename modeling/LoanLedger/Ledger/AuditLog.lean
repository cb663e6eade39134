import LoanLedger.Ledger.Sequence

/-!
# The audit log of a loan

* `AuditLog.append loanId r` : records `r` as the next entry of a loan, chained to the one before; a
  key that is recorded already takes no number;
* `AuditLog.findTransition key` : the entry that is recorded under a key;
* `AuditLog.verify loanId` : checks every link and every content of the log;
* `AuditLog.views loanId tag?`, `AuditLog.entries loanId` : the log as it is shown.

`firstBreak?` and `checkEntry` say what a sound log is, apart from where it is kept.
-/

namespace LoanLedger.Ledger.AuditLog

open Calendar (Timestamp)

/-! ## What the session knows -/

def recalled (k : Known) (e : Entry) : Entry :=
  (k.entries.find? fun x => x.loanId = e.loanId && x.seq = e.seq).getD e

def remember (e : Entry) (k : Known) : Known :=
  { k with entries :=
    e :: k.entries.filter fun x => !(x.loanId = e.loanId && x.seq = e.seq) }

/-- The entries that a query gives, as the session knows them. -/
def ask (f : Tables → List Entry) : Work (List Entry) := do
  let rows ← query f
  pure (rows.map (recalled (← session).known))

/-! ## Appending -/

/-- The entry for a record, not yet chained. -/
def draft (loanId : String) (seq : Int) (r : AuditRecord) (timestamp recordedAt : Timestamp) :
    Entry where
  loanId
  seq
  timestamp
  recordedAt
  actor := r.actor
  event := r.event.word
  details := r.details
  attributes := .map r.attributes
  key := r.key
  payloadHash := ""
  prevHash := none
  hash := ""

/-- Stores an entry. -/
def store (e : Entry) : Work Unit := do
  change fun t => match e.stored? with
    | none => .error (.storage .unstorable)
    | some row => if !Column.fitsInteger row.seq then .error .tooLarge
      else match t.addEntry? row with
        | some t => .ok t
        | none => .error (.storage .conflict)
  know (remember e)

def next (loanId : String) (r : AuditRecord) : Work Entry := do
  let seq ← Sequence.next (Sequence.ofLoan loanId)
  let last ← query (·.newest? loanId)
  let timestamp ← utc r.timestamp
  let recordedAt ← utc (← now)
  let e ← Work.ofExcept
    (((draft loanId seq r timestamp recordedAt).sealed? (last.map (·.hash))).mapError .content)
  store e
  pure e

def findTransition (key : String) : Work (Option Entry) :=
  call .findTransition none <| guarded "find_transition_entry" do
    pure (← ask fun t => (t.entryByKey? key).toList).head?

/-- What happens when the place or the key of an entry was taken. -/
def afterConflict (loanId key : String) : Work Entry := do
  match ← findTransition key with
  | none => throw (.storage .conflict)
  | some _ => throw (.failure (.duplicateTransition loanId key))

def append (loanId : String) (r : AuditRecord) : Work (Option Entry) :=
  call .appendLog none do
    let e ← guarded "append_log" (match r.key with
      | none => next loanId r
      | some key => savepoint (next loanId r) (afterConflict loanId key))
    emit .info "services.ledger" "audit_entry_appended"
      [("loan_id", .text loanId), ("seq", .int e.seq), ("audit_event", .text r.event.word)]
    pure (some e)

/-! ## Verifying -/

inductive Flaw where
  | linkage
  | content
  deriving Repr, DecidableEq

def Flaw.word : Flaw → String
  | linkage => "linkage"
  | content => "content"

/-- The first entry that is wrong: what is wrong with it, and the hashes that should have been and
are there. -/
structure Break where
  seq : Int
  flaw : Flaw
  expected : Option String
  actual : Option String

def checkEntry (prevHash : Option String) (e : Entry) : Except ContentError (Option Break) :=
  if e.prevHash ≠ prevHash then .ok (some ⟨e.seq, .linkage, prevHash, e.prevHash⟩)
  else do
    let payloadHash ← e.payloadHash?
    let hash := Audit.chainHash e.loanId e.seq e.event payloadHash e.prevHash
    pure (if payloadHash ≠ e.payloadHash || hash ≠ e.hash then
      some ⟨e.seq, .content, some hash, some e.hash⟩ else none)

def firstBreak? (prevHash : Option String) : List Entry → Except ContentError (Option Break)
  | [] => .ok none
  | e :: es => do
    match ← checkEntry prevHash e with
    | some b => pure (some b)
    | none => firstBreak? (some e.hash) es

def verify (loanId : String) : Work Unit := do
  let es ← guarded "verify_audit_chain" (ask (·.entriesOf loanId))
  match ← Work.ofExcept ((firstBreak? none es).mapError .content) with
  | none => pure ()
  | some b => do
    emit .critical "services.ledger" "audit_chain_broken"
      [("loan_id", .text loanId), ("seq", .int b.seq), ("check", .text b.flaw.word)]
    throw (.failure (.auditChainBroken loanId b.seq b.expected b.actual))

/-! ## Showing -/

/-- An entry as readers of the log see it. -/
structure View where
  loanId : String
  seq : Int
  timestamp : Timestamp
  recordedAt : Timestamp
  actor : String
  event : Audit.Tag
  details : String
  attributes : Entries
  hash : String

/-- An entry as readers see it. -/
def View.ofEntry? (e : Entry) : Except ContentError View := do
  let event ← e.tag?
  let attributes ← e.details?.mapError .attributes
  pure {
    loanId := e.loanId
    seq := e.seq
    timestamp := e.timestamp
    recordedAt := e.recordedAt
    actor := e.actor
    event
    details := e.details
    attributes
    hash := e.hash }

def views (loanId : String) (tag? : Option Audit.Tag) : Work (List View) := do
  let es ← ask fun t => (t.entriesOf loanId).filter fun e => tag?.all (·.word = e.event)
  Work.ofExcept ((es.mapM View.ofEntry?).mapError .content)

def entries (loanId : String) : Work (List Entry) :=
  ask (·.entriesOf loanId)

end LoanLedger.Ledger.AuditLog
