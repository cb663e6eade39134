import LoanLedger.Workflow.Basic
import LoanLedger.Report

/-!
# Reading process definitions

* `Definition.ofValue? source checksum v` : the definition that a document describes: every state,
  transition and action of the document in its order; missing texts are empty;
* `State.ofValue?`, `Transition.ofValue?`, `Action.ofValue?` : the same for parts of a document.

A transition may tell its trigger under the text `on` or under the truth value that a bare `on` is
read as.
-/

namespace LoanLedger.Workflow

/-- Why a document describes no definition. -/
inductive ReadError where
  | failure (f : Failure)
  /-- Some number in the document is too long to be written. -/
  | numeral (e : Numeral.Error)
  | infinite (isDecimal : Bool)

/-- The report of a document that describes no definition. -/
def ReadError.report : ReadError → Report
  | .failure f => f.report
  | .numeral e => e.report
  | .infinite false => .plain "OverflowError" "cannot convert float infinity to integer"
  | .infinite true => .plain "OverflowError" "cannot convert Infinity to integer"

/-- A document of a wrong shape. -/
def invalid (source message : String) : ReadError :=
  .failure (.definitionInvalid source [message])

/-- The text of a field; null has an empty one. -/
def textOf (v : Value) : Except ReadError String :=
  v.trimmed?.mapError .numeral

/-- The elements of a list that may be left out; `none` when there is something else. -/
def listOf? (v : Value) : Option (List Value) :=
  if !v.isTruthy then some []
  else match v with
    | .list vs => some vs
    | _ => none

/-- The action that a value describes: a trigger, or a mapping that names one. -/
def Action.ofValue? (source : String) (v : Value) : Except ReadError Action :=
  match v.text?, v with
  | some s, _ => .ok (.ofTrigger (Text.trim s))
  | none, .map es => (textOf (Entries.field es "trigger")).map .ofTrigger
  | none, v => .error (invalid source ("action must be a string or mapping, got " ++ v.sort))

def triggerOf (es : Entries) : Value :=
  (Entries.field? es "on").getD ((Entries.get? es (.bool true)).getD .null)

def Transition.ofValue? (source : String) : Value → Except ReadError Transition
  | .map es =>
    match listOf? (Entries.field es "actions") with
    | none => .error (invalid source "transition actions must be a list")
    | some vs => do
      let on ← textOf (triggerOf es)
      let target ← textOf (Entries.field es "to")
      let actions ← vs.mapM (Action.ofValue? source)
      pure ⟨on, target, actions⟩
  | v => .error (invalid source ("transition must be a mapping, got " ++ v.sort))

def State.ofValue? (source : String) : Value → Except ReadError State
  | .map es =>
    match listOf? (Entries.field es "transitions") with
    | none => do
      let id ← textOf (Entries.field es "id")
      throw (invalid source ("state " ++ Text.quoted id ++ ": transitions must be a list"))
    | some vs => do
      let id ← textOf (Entries.field es "id")
      let transitions ← vs.mapM (Transition.ofValue? source)
      let description ← textOf (Entries.field es "description")
      pure ⟨id, transitions, description⟩
  | v => .error (invalid source ("state must be a mapping, got " ++ v.sort))

/-- What a value is as a whole number. -/
inductive Whole where
  | number (n : Int)
  | infinite (isDecimal : Bool)
  | none

/-- The whole number that a value is or writes; fractions are cut. -/
def wholeOf : Value → Whole
  | .bool b => .number (if b then 1 else 0)
  | .int n => .number n
  | .float (.infinity _) => .infinite false
  | .float x => x.truncate?.elim .none .number
  | .decimal (.infinity _) => .infinite true
  | .decimal d => d.truncate?.elim .none .number
  | .uuid u => .number u.number
  | .bytes bs => read (String.ofList (bs.map fun b =>
      if b.toNat < 0x80 then Char.ofNat b.toNat else '?'))
  | v => v.text?.elim .none read
where
  /-- The whole number that a text writes. -/
  read (s : String) : Whole :=
    match Numeral.toInt? s with
    | .ok n => .number n
    | .error _ => .none

/-- The version that a value gives. -/
def versionOf (source : String) (v : Value) : Except ReadError Int :=
  match wholeOf v with
  | .number n => .ok n
  | .infinite isDecimal => .error (.infinite isDecimal)
  | .none => do
    let s ← v.quoted?.mapError .numeral
    throw (invalid source ("version must be an integer, got " ++ s))

/-- The definition that a document describes. -/
def Definition.ofValue? (source checksum : String) : Value → Except ReadError Definition
  | .map es =>
    match listOf? (Entries.field es "states") with
    | none => .error (invalid source "states must be a list")
    | some vs => do
      let version ← versionOf source ((Entries.field? es "version").getD (.int 0))
      let name ← textOf (Entries.field es "name")
      let initialState ← textOf (Entries.field es "initial_state")
      let states ← vs.mapM (State.ofValue? source)
      let description ← textOf (Entries.field es "description")
      pure ⟨name, version, initialState, states, description, checksum⟩
  | _ => .error (invalid source "document must be a mapping")

end LoanLedger.Workflow
