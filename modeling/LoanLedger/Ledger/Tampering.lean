import LoanLedger.Calendar.IsoReader
import LoanLedger.Ledger.Loans

/-!
# Tampering

* `Column`-wise changes of stored rows behind the back of the ledger: `forceState`, `tamper`,
  `deleteEntry`, `overwriteCounter`;
* `editEntry`, `eraseEntry` : attempts to change or remove an audit entry that a session has loaded, which
  are refused while entries are guarded;
* `Bulk` : statements of a session that write into all entries that meet a condition, or remove them;
  entries are guarded when they are loaded and flushed, so that no guard sees such a statement.
-/

namespace LoanLedger.Ledger.Tampering

open Calendar (Timestamp)

/-! ## Columns of an entry -/

/-- A column of an audit entry. -/
inductive Field where
  | loanId
  | seq
  | timestamp
  | recordedAt
  | actor
  | event
  | details
  | attributes
  | key
  | payloadHash
  | prevHash
  | hash
  deriving Repr, DecidableEq

namespace Field

def named : List (String × Field) := [
  ("loan_id", loanId), ("seq", seq), ("timestamp", timestamp), ("recorded_at", recordedAt),
  ("actor", actor), ("event", event), ("details", details), ("attributes", attributes),
  ("idempotency_key", key), ("payload_hash", payloadHash), ("prev_hash", prevHash), ("hash", hash)]

def ofName? (s : String) : Option Field :=
  named.lookup s

end Field

def textOf (v : Value) : Except Error String :=
  match v with
  | .null => .error (.storage .conflict)
  | v => .ok ((v.text?).getD v.label)

/-- The text that a column keeps of a value that may be absent. -/
def textOf? : Value → Except Error (Option String)
  | .null => .ok none
  | v => (textOf v).map some

/-- The whole number that a column keeps of a value. -/
def intOf (v : Value) : Except Error Int :=
  match v with
  | .int n => if Column.fitsInteger n then .ok n else .error .tooLarge
  | .bool b => .ok (if b then 1 else 0)
  | .null => .error (.storage .conflict)
  | _ => .error (.storage .unstorable)

/-- The time that a column keeps of a value; a text without an offset is taken as UTC. -/
def timeOf (v : Value) : Except Error Timestamp :=
  let utc (t : Timestamp) : Except Error Timestamp :=
    (Column.utc? t).mapError fun _ => .storage .unstorable
  match v with
  | .time t => utc t
  | .null => .error (.storage .conflict)
  | v => match v.text? with
    | some s => match Timestamp.ofIso? s with
      | .ok t => utc t
      | .error _ => .error (.storage .unstorable)
    | none => .error (.storage .unstorable)

/-- The entry with another value in a column. -/
def put (e : Entry) (f : Field) (v : Value) : Except Error Entry :=
  match f with
  | .loanId => (textOf v).map fun s => { e with loanId := s }
  | .seq => (intOf v).map fun n => { e with seq := n }
  | .timestamp => (timeOf v).map fun t => { e with timestamp := t }
  | .recordedAt => (timeOf v).map fun t => { e with recordedAt := t }
  | .actor => (textOf v).map fun s => { e with actor := s }
  | .event => (textOf v).map fun s => { e with event := s }
  | .details => (textOf v).map fun s => { e with details := s }
  | .attributes => .ok { e with attributes := v }
  | .key => (textOf? v).map fun s => { e with key := s }
  | .payloadHash => (textOf v).map fun s => { e with payloadHash := s }
  | .prevHash => (textOf? v).map fun s => { e with prevHash := s }
  | .hash => (textOf v).map fun s => { e with hash := s }

/-- The tables with another value in a column of an entry. -/
def replaced (t : Tables) (old : Entry) (f : Field) (v : Value) : Except Error Tables := do
  let new ← put old f v
  match new.stored? with
  | none => throw (.storage .unstorable)
  | some row => match t.replaceEntry? old.loanId old.seq row with
    | some t => pure t
    | none => throw (.storage .conflict)

/-! ## Behind the back of the ledger -/

def forceState (loanId state : String) : Work Unit :=
  modify fun d => { d with
    store := d.store.changeLoan loanId fun l => { l with state, version := l.version + 1 } }

/-- Writes a value into a column of an entry; gives the number of rows. -/
def tamper (loanId : String) (seq : Int) (f : Field) (v : Value) : Work Nat := do
  let d ← get
  match d.store.entryAt? loanId seq with
  | none => pure 0
  | some e => do
    let store ← Work.ofExcept (replaced d.store e f v)
    set { d with store }
    pure 1

def deleteEntry (loanId : String) (seq : Int) : Work Nat :=
  modifyGet fun d =>
    (if (d.store.entryAt? loanId seq).isSome then 1 else 0,
      { d with store := d.store.removeEntry loanId seq })

/-- Writes a value into a counter; gives the number of rows. -/
def overwriteCounter (name : String) (value : Int) : Work Nat := do
  if !Column.fitsInteger value then throw .tooLarge
  modifyGet fun d =>
    (if (d.store.counter? name).isSome then 1 else 0,
      { d with store := d.store.setCounter name value })

/-! ## Within a session -/

def entryAt (loanId : String) (seq : Int) : Work Entry := do
  match (← AuditLog.ask fun t => (t.entryAt? loanId seq).toList).head? with
  | some e => pure e
  | none => throw (.storage .noRow)

/-- Refuses a change of an entry of a loan while entries are guarded. -/
def guardEntry (loanId operation reason : String) : Work Unit := do
  if ← isGuarded then
    breakSession
    emit .error "db.immutability" "immutability_violation_blocked" [
      ("entity_type", .text "AuditLogEntry"),
      ("audit_loan_id", .text loanId),
      ("operation", .text operation)]
    throw (.failure (.immutabilityViolation "AuditLogEntry" reason))

/-- Writes a value into a column of an entry, even if it is the value that is there. -/
def editEntry (loanId : String) (seq : Int) (f : Field) (v : Value) : Work Unit := do
  let e ← entryAt loanId seq
  let shown := if f = .loanId then v.label else e.loanId
  guardEntry shown "UPDATE" "Audit log entries are immutable and cannot be modified"
  let edited ← Work.ofExcept (put e f v)
  change fun t => replaced t e f v
  know fun k => AuditLog.remember edited
    { k with entries := k.entries.filter fun x => !(x.loanId = e.loanId && x.seq = e.seq) }

def eraseEntry (loanId : String) (seq : Int) : Work Unit := do
  let e ← entryAt loanId seq
  guardEntry e.loanId "DELETE" "Audit log entries cannot be deleted"
  change fun t => .ok (t.removeEntry loanId seq)
  know fun k =>
    { k with entries := k.entries.filter fun x => !(x.loanId = e.loanId && x.seq = e.seq) }

/-! ## Statements for many entries -/

inductive Bulk where
  | rewrite (p : Entry → Bool) (f : Field) (v : Value)
  | remove (p : Entry → Bool)

namespace Bulk

def selects : Bulk → Entry → Bool
  | rewrite p .. => p
  | remove p => p

/-- The rows afterwards. Entries are written one after the other, and none may take the place or the key of another
one on the way. -/
def rows? (k : Bulk) (t : Tables) : Except Error Tables :=
  match k with
  | rewrite p f v => (t.entries.filter p).foldlM (fun t e => replaced t e f v) t
  | remove p => .ok { t with entries := t.entries.filter (!p ·) }

/-- Sends the statement; gives the number of rows that it was for. What the session knows of them is forgotten, so that
the rows count. -/
def run (k : Bulk) : Work Nat := do
  statement
  let t := (← session).tables
  setTables (← Work.ofExcept (k.rows? t))
  know fun known => { known with entries := known.entries.filter (!k.selects ·) }
  pure (t.entries.countP k.selects)

end Bulk

/-- Another writer changes the row of a loan that the session knows. -/
def bumpVersion (loanId : String) : Work Unit := do
  let l ← Loans.require loanId false
  Loans.bump l.loanId

end LoanLedger.Ledger.Tampering
