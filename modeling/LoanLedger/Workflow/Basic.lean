import LoanLedger.Numeral.Basic

/-!
# Process definitions

A process definition is the graph of the states that a loan can be in.

* `Action`, `Transition`, `State`, `Definition` : what a definition is made of, in its own order;
* `State.find? s type` : the first transition of `s` that an event of this type triggers;
* `Definition.find? d id` : the first state of `d` with this id;
* `Definition.label d` : the name and the version in one text.
-/

namespace LoanLedger.Workflow

inductive ActionKind where
  | firstDisbursement
  | secondDisbursement
  | unrecognized
  deriving Repr, DecidableEq

namespace ActionKind

def word : ActionKind → String
  | firstDisbursement => "DISBURSEMENT_1"
  | secondDisbursement => "DISBURSEMENT_2"
  | unrecognized => "UNRECOGNIZED"

def known : List ActionKind := [firstDisbursement, secondDisbursement]

def ofTrigger (trigger : String) : ActionKind :=
  (known.find? (·.word = trigger)).getD unrecognized

def ofWord? (s : String) : Option ActionKind :=
  (known ++ [unrecognized]).find? (·.word = s)

end ActionKind

/-- A step that belongs to a transition. An action that is read does what its trigger says. -/
structure Action where
  trigger : String
  kind : ActionKind
  deriving Repr, DecidableEq

namespace Action

def ofTrigger (trigger : String) : Action := ⟨trigger, .ofTrigger trigger⟩

def isRecognized (a : Action) : Bool :=
  a.kind ≠ .unrecognized

end Action

/-- Where an event leads to, and what is done on the way. -/
structure Transition where
  /-- The type of the events that trigger it. -/
  on : String
  /-- The id of the state that it leads to. -/
  «to» : String
  actions : List Action
  deriving Repr, DecidableEq

structure State where
  id : String
  transitions : List Transition
  description : String
  deriving Repr, DecidableEq

namespace State

def find? (s : State) (eventType : String) : Option Transition :=
  s.transitions.find? (·.on = eventType)

def isTerminal (s : State) : Bool :=
  s.transitions.isEmpty

end State

/-- A graph of states with a name and a version. -/
structure Definition where
  name : String
  version : Int
  initialState : String
  states : List State
  description : String
  /-- The digest of the document that the definition was read from. -/
  checksum : String
  deriving Repr, DecidableEq

namespace Definition

def find? (d : Definition) (id : String) : Option State :=
  d.states.find? (·.id = id)

def stateIds (d : Definition) : List String :=
  d.states.map (·.id)

/-- All transitions with the ids of the states that they lead out of. -/
def transitions (d : Definition) : List (String × Transition) :=
  d.states.flatMap fun s => s.transitions.map fun t => (s.id, t)

/-- The name and the version in one text, also where the version has more digits than `Numeral.digitLimit`, which are
refused elsewhere. -/
def label (d : Definition) : String :=
  d.name ++ ":v" ++ Numeral.ofInt d.version

end Definition

end LoanLedger.Workflow
