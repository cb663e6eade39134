import LoanLedger.Log.Record
import LoanLedger.Path
import LoanLedger.Workflow.Bundled
import LoanLedger.Workflow.Check
import LoanLedger.Workflow.Checksum
import LoanLedger.Workflow.Reader
import LoanLedger.Yaml.Reader

/-!
# Where definitions come from

Only definitions that pass the check are used.

* `Definition.load? source v` : the definition of a loaded document with its checksum;
* `Definition.admit source d` : the records that the check of `d` leaves in the log, and whether `d`
  passes;
* `Source` : the bundled document, or a file with its text;
* `Source.load? s` : the definition that the document of `s` describes, not yet checked;
* `Source.active s` : the records that loading and checking leave in the log, and the definition if it
  can be used.
-/

namespace LoanLedger.Workflow

/-- Why a loaded document gives no definition. -/
inductive LoadError where
  | read (e : ReadError)
  | checksum (e : Json.Error)

/-- The report of a document that gives no definition. -/
def LoadError.report : LoadError → Report
  | .read e => e.report
  | .checksum e => e.report

/-- The definition of a loaded document, not yet checked. A document that counts as absent is an
empty mapping. -/
def Definition.load? (source : String) (v : Value) : Except LoadError Definition := do
  let v := if v.isTruthy then v else .map []
  let checksum ← (checksum? v).mapError .checksum
  (Definition.ofValue? source checksum v).mapError .read

def checkRecord (level : Log.Level) (message source : String) (fields : List (String × Value)) :
    Log.Record :=
  ⟨level, "config", message, ("source", .text source) :: fields, none⟩

def warningRecord (source warning : String) : Log.Record :=
  checkRecord .warning "process_definition_warning" source [("warning", .text warning)]

/-- The record of a definition that cannot be used. -/
def invalidRecord (source : String) (errors : List String) : Log.Record :=
  checkRecord .error "process_definition_invalid" source [("errors", .list (errors.map .text))]

/-- The record of a definition that is used. -/
def loadedRecord (source : String) (d : Definition) : Log.Record :=
  checkRecord .info "process_definition_loaded" source [
    ("definition_name", .text d.name),
    ("definition_version", .int d.version),
    ("checksum", .text d.checksum),
    ("state_count", .int d.states.length),
    ("transition_count", .int d.transitions.length)]

/-- The records that the check of a definition leaves, and whether it passes. -/
def Definition.admit (source : String) (d : Definition) :
    List Log.Record × Except ReadError Definition :=
  match d.check? with
  | .error e => ([], .error (.numeral e))
  | .ok found =>
    let warned := found.warnings.map (warningRecord source)
    if found.errors.isEmpty then (warned ++ [loadedRecord source d], .ok d)
    else (warned ++ [invalidRecord source found.errors],
      .error (.failure (.definitionInvalid source found.errors)))

inductive Source where
  | bundled
  | file (name : String) (text : Option String)

/-- Why a source gives no definition. -/
inductive SourceError where
  | missing (name : String)
  | document (e : Yaml.Error)
  | load (e : LoadError)

/-- The report of a source that gives no definition. -/
def SourceError.report : SourceError → Report
  | .missing name =>
    (External.ofArguments "FileNotFoundError"
      [.int 2, .text "No such file or directory", .text name]).report
  | .document e => e.report
  | .load e => e.report

namespace Source

/-- How a source is called in records and reports. -/
def name : Source → String
  | bundled => "<default>"
  | file name _ => Path.normal name

def document? (s : Source) : Except SourceError Value :=
  match s with
  | bundled => .ok bundledDocument
  | file _ (some text) => (Yaml.read? text).mapError .document
  | file _ none => .error (.missing s.name)

def load? (s : Source) : Except SourceError Definition := do
  let v ← s.document?
  (Definition.load? s.name v).mapError .load

/-- The records that loading and checking leave, and the definition if it can be used. -/
def active (s : Source) : List Log.Record × Except Report Definition :=
  match s.load? with
  | .error e => ([], .error e.report)
  | .ok d =>
    let (records, checked) := d.admit s.name
    (records, checked.mapError (·.report))

end Source

end LoanLedger.Workflow
