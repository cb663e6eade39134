import LoanLedger.Workflow.Basic
import LoanLedger.Numeral.Basic
import LoanLedger.Text.Quoted

/-!
# Checking process definitions

* `Definition.errors d` : why `d` cannot be used, in the order identity, state ids, initial state,
  transitions;
* `Definition.warnings d` : what to look at in a definition that can be used: triggers that never
  fire, unknown actions, states that are never reached;
* `Definition.reached d` : the ids of the states that transitions lead to from the initial one;
* `Definition.check? d` : the errors and warnings.
-/

namespace LoanLedger.Workflow

/-- What is found when a definition is checked. -/
inductive Finding where
  | error (message : String)
  | warning (message : String)
  deriving Repr, DecidableEq

/-- The errors and warnings of a check. -/
structure Findings where
  errors : List String
  warnings : List String
  deriving Repr, DecidableEq

namespace Definition

/-- The name must not be empty and the version must be positive. -/
def identityErrors (d : Definition) : List String :=
  (if d.name = "" then ["Definition name must not be empty"] else []) ++
    if d.version ≤ 0 then
      ["Definition version must be positive, got " ++ Numeral.ofInt d.version]
    else []

/-- The ids must not be empty and must differ from those before them. -/
def idErrors (seen : List String) : List String → List String
  | [] => []
  | id :: ids =>
    if id = "" then "State with empty id" :: idErrors seen ids
    else if seen.contains id then ("Duplicate state id: " ++ id) :: idErrors seen ids
    else idErrors (id :: seen) ids

/-- There must be states, with ids of their own. -/
def stateErrors (d : Definition) : List String :=
  (if d.states.isEmpty then ["Definition declares no states"] else []) ++ idErrors [] d.stateIds

/-- The initial state must be declared. -/
def initialErrors (d : Definition) : List String :=
  if d.initialState = "" then ["initial_state must not be empty"]
  else if (d.find? d.initialState).isNone then
    ["initial_state " ++ Text.quoted d.initialState ++ " is not a declared state"]
  else []

/-- What is found of transitions of a state, behind others with some triggers. -/
def transitionFindings (d : Definition) (id : String) (seen : List String) :
    List Transition → List Finding
  | [] => []
  | t :: ts =>
    (if t.on = "" then [.error ("State " ++ id ++ ": transition with empty trigger")]
      else if seen.contains t.on then
        [.warning ("State " ++ id ++ ": duplicate trigger " ++ Text.quoted t.on ++
          "; only the first transition can fire")]
      else [])
    ++ (if (d.find? t.to).isNone then
        [.error ("State " ++ id ++ ": transition on " ++ Text.quoted t.on ++
          " targets undeclared state " ++ Text.quoted t.to)]
      else [])
    ++ transitionFindings d id (t.on :: seen) ts

def allTransitionFindings (d : Definition) : List Finding :=
  d.states.flatMap fun s => transitionFindings d s.id [] s.transitions

/-- A warning for each action that is not known. -/
def actionWarnings (d : Definition) : List String :=
  d.transitions.flatMap fun (id, t) =>
    (t.actions.filter (!·.isRecognized)).map fun a =>
      "State " ++ id ++ ": transition on " ++ Text.quoted t.on ++ " has unrecognized action " ++
        Text.quoted a.trigger

/-! ## Reachability -/

/-- The states among the destinations of a state that have not been reached before. -/
def newTargets (d : Definition) (reached : List String) (ts : List Transition) :
    List String × List State :=
  ts.foldl (fun (acc : List String × List State) t =>
    match d.find? t.to with
    | some s => if acc.1.contains s.id then acc else (s.id :: acc.1, s :: acc.2)
    | none => acc) (reached, [])

/-- Follows transitions out of the states that wait, the last that came first. Every state comes in
at most once, so that as many steps as there are states suffice. -/
def explore (d : Definition) : Nat → List String → List State → List String
  | 0, reached, _ => reached
  | _, reached, [] => reached
  | fuel + 1, reached, s :: waiting =>
    let (reached, news) := d.newTargets reached s.transitions
    explore d fuel reached (news ++ waiting)

/-- The ids of the states that transitions lead to from the initial state, itself among them. -/
def reached (d : Definition) : List String :=
  match d.find? d.initialState with
  | none => []
  | some s => explore d (d.states.length + 1) [s.id] [s]

/-- A warning for each state that is not reached, once for each id. -/
def reachWarnings (d : Definition) : List String :=
  match d.find? d.initialState with
  | none => []
  | some start =>
    let there := d.reached
    (d.stateIds.eraseDups.filter fun id => id ≠ "" && !there.contains id).map fun id =>
      "State " ++ id ++ " is unreachable from " ++ start.id

/-! ## The whole check -/

def errors (d : Definition) : List String :=
  d.identityErrors ++ d.stateErrors ++ d.initialErrors ++
    d.allTransitionFindings.filterMap fun
      | .error m => some m
      | .warning _ => none

def warnings (d : Definition) : List String :=
  (d.allTransitionFindings.filterMap fun
      | .warning m => some m
      | .error _ => none)
    ++ d.actionWarnings ++ d.reachWarnings

def isValid (d : Definition) : Bool :=
  d.errors.isEmpty

/-- What the check finds. A version that is not positive is told, which fails if it is too long to be written. -/
def check? (d : Definition) : Except Numeral.Error Findings :=
  if d.version ≤ 0 then (Numeral.ofInt? d.version).map fun _ => ⟨d.errors, d.warnings⟩
  else .ok ⟨d.errors, d.warnings⟩

end Definition

end LoanLedger.Workflow
