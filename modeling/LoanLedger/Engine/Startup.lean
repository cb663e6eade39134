import LoanLedger.Engine.Basic
import LoanLedger.Workflow.Source

/-!
# Starting up

* `storageNotes` : what is written when the storage is opened and its tables are made;
* `Engine.readyNote g` : what is written when an engine is ready;
* `Engine.build source dispatcher timeout` : the engine of the definition of a source, and what is
  written while it is built.
-/

namespace LoanLedger.Engine

def tableNames : List String := ["disbursements", "loan_audit_log", "loans", "sequence_counters"]

def storageNotes : List Log.Record := [
  ⟨.info, "db.engine", "engine_initialized",
    [("dialect", .text "sqlite"), ("echo", .bool false)], none⟩,
  ⟨.info, "db.engine", "tables_created", [("tables", .list (tableNames.map .text))], none⟩]

def readyNote (g : Engine) : Log.Record :=
  ⟨.info, "services.bootstrap", "workflow_engine_ready", [
    ("workflow", .text g.definition.label),
    ("checksum", .text g.definition.checksum),
    ("lock_timeout_seconds", g.lockTimeout)], none⟩

/-- The engine of the definition of a source, and what is written while it is built. -/
def build (source : Workflow.Source) (dispatcher : Dispatcher) (lockTimeout : Value) :
    List Log.Record × Except Report Engine :=
  let (records, definition) := source.active
  match definition with
  | .ok d =>
    let g : Engine := ⟨d, dispatcher, lockTimeout⟩
    (records ++ [g.readyNote], .ok g)
  | .error e => (records, .error e)

end LoanLedger.Engine
