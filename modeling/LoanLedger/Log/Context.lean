import LoanLedger.Report

/-!
# Log context

Fields that are bound while some work is done stand on every record that is written meanwhile.

* `Context` : the bound fields, each once and in the order of `Field.all`;
* `Context.merge c updates` : `c` with new values; null values and unknown names are passed over;
* `Context.set? c updates` : the same, refused when a name is unknown.
-/

namespace LoanLedger.Log

inductive Field where
  | correlationId
  | loanId
  | eventType
  | actor
  | traceId
  deriving Repr, DecidableEq

namespace Field

def all : List Field := [correlationId, loanId, eventType, actor, traceId]

def name : Field → String
  | correlationId => "correlation_id"
  | loanId => "loan_id"
  | eventType => "event_type"
  | actor => "actor"
  | traceId => "trace_id"

def ofName? (s : String) : Option Field :=
  all.find? (·.name = s)

end Field

/-- The bound fields with their values. -/
abbrev Context := List (Field × Value)

namespace Context

def empty : Context := []

/-- The value that updates give to a field: null leaves it as it was. -/
def updated? (c : Context) (updates : List (String × Value)) (f : Field) : Option Value :=
  match updates.lookup f.name with
  | none => c.lookup f
  | some .null => c.lookup f
  | some v => some v

def merge (c : Context) (updates : List (String × Value)) : Context :=
  Field.all.filterMap fun f => (c.updated? updates f).map (f, ·)

/-- The names that belong to no field, in order. -/
def unknownNames (updates : List (String × Value)) : List String :=
  ((updates.map (·.1)).filter fun n => (Field.ofName? n).isNone).mergeSort (· ≤ ·)

/-- The context with new values, or the names that belong to no field. -/
def set? (c : Context) (updates : List (String × Value)) : Except (List String) Context :=
  match unknownNames updates with
  | [] => .ok (c.merge updates)
  | names => .error names

def unknown (names : List String) : Report :=
  .plain "TypeError"
    ("Unknown log context field(s): " ++ (Value.list (names.map .text)).label)

/-- The bound fields by name. -/
def named (c : Context) : List (String × Value) :=
  c.map fun p => (p.1.name, p.2)

end Context

end LoanLedger.Log
