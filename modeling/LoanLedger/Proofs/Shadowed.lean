import LoanLedger.Proofs.Gate

/-!
# Transitions that never fire

* `State.place? s type` : the place of the transition that `s.find? type` finds; `State.triggerAt s i` : the trigger
  of the transition at a place;
* `State.silent s` : the places that no event leads to;
* `Definition.findingsAt d s i` : what the check adds when it comes to the transition at place `i` of `s`;
  `Definition.warned_iff` : a warning exactly where the trigger stands at an earlier place;
* `duplicate_warnings_exact` : in a definition without errors the transitions with a warning are those that never fire.
-/

namespace LoanLedger.Workflow

/-! ## Places -/

namespace State

variable {s : State} {i j : Nat} {type : String}

def place? (s : State) (type : String) : Option Nat :=
  s.transitions.findIdx? (·.on = type)

def triggerAt (s : State) (i : Nat) : String :=
  (s.transitions[i]?).elim "" (·.on)

/-- The triggers of the transitions in front of a place. -/
def triggersBefore (s : State) (i : Nat) : List String :=
  (s.transitions.take i).map (·.on)

def silent (s : State) : List Nat :=
  (List.range s.transitions.length).filter fun i => s.place? (s.triggerAt i) ≠ some i

theorem find?_eq (s : State) (type : String) : s.find? type = (s.place? type).bind fun i => s.transitions[i]? :=
  List.find?_eq_bind_findIdx?_getElem?

theorem triggerAt_eq (hi : i < s.transitions.length) : s.triggerAt i = s.transitions[i].on := by
  simp [triggerAt, hi]

theorem mem_triggersBefore (hi : i ≤ s.transitions.length) :
    type ∈ s.triggersBefore i ↔ ∃ j < i, s.triggerAt j = type := by
  simp only [triggersBefore, List.mem_map, List.mem_take_iff_getElem]
  constructor
  · rintro ⟨t, ⟨j, hj, rfl⟩, rfl⟩
    exact ⟨j, by omega, triggerAt_eq (by omega)⟩
  · rintro ⟨j, hj, rfl⟩
    exact ⟨_, ⟨j, by omega, rfl⟩, (triggerAt_eq (by omega)).symm⟩

/-- A place is that of the first transition with the trigger that stands there. -/
theorem place?_eq_some : s.place? type = some i ↔
    i < s.transitions.length ∧ s.triggerAt i = type ∧ ∀ j < i, s.triggerAt j ≠ type := by
  rw [place?, List.findIdx?_eq_some_iff_getElem]
  constructor
  · rintro ⟨hi, on, before⟩
    refine ⟨hi, by simpa [triggerAt_eq hi] using on, ?_⟩
    intro j hj
    simpa [triggerAt_eq (s := s) (i := j) (by omega)] using before j hj
  · rintro ⟨hi, on, before⟩
    refine ⟨hi, by simpa [triggerAt_eq hi] using on, ?_⟩
    intro j hj
    simpa [triggerAt_eq (s := s) (i := j) (by omega)] using before j hj

/-- No event leads to a place exactly where the first transition with the trigger there is another one. -/
theorem place?_ne_iff : (∀ type, s.place? type ≠ some i) ↔ s.place? (s.triggerAt i) ≠ some i := by
  refine ⟨fun h => h _, ?_⟩
  intro h type ht
  have on := (place?_eq_some.mp ht).2.1
  exact h (on ▸ ht)

theorem place?_triggerAt_ne (hi : i < s.transitions.length) :
    s.place? (s.triggerAt i) ≠ some i ↔ s.triggerAt i ∈ s.triggersBefore i := by
  rw [mem_triggersBefore (by omega), ne_eq, place?_eq_some]
  simp [hi]

theorem exists_place? (h : s.triggerAt i ∈ s.triggersBefore i) (hi : i < s.transitions.length) :
    ∃ j < i, s.triggerAt j = s.triggerAt i ∧ s.place? (s.triggerAt i) = some j := by
  obtain ⟨j, hj, on⟩ := (mem_triggersBefore (by omega)).mp h
  have found : (s.place? (s.triggerAt i)).isSome := by
    rw [place?, List.findIdx?_isSome, List.any_eq_true]
    exact ⟨s.transitions[j], List.getElem_mem _, by simp [← on, triggerAt_eq (s := s) (i := j) (by omega)]⟩
  obtain ⟨k, hk⟩ := Option.isSome_iff_exists.mp found
  obtain ⟨-, hon, first⟩ := place?_eq_some.mp hk
  refine ⟨k, ?_, hon, hk⟩
  by_contra hle
  exact first j (by omega) on

end State

/-! ## Findings at places -/

namespace Definition

variable {d : Definition} {s : State} {i : Nat} {id : String} {seen : List String} {t : Transition}
    {ts us : List Transition}

/-- The warning of a transition whose trigger stands in front of it. -/
def duplicateWarning (id on : String) : String :=
  "State " ++ id ++ ": duplicate trigger " ++ Text.quoted on ++ "; only the first transition can fire"

/-- What is found of one transition, behind others with some triggers. -/
def findingsOf (d : Definition) (id : String) (seen : List String) (t : Transition) : List Finding :=
  d.transitionFindings id seen [t]

theorem warning_mem_findingsOf (ht : t.on ≠ "") {m : String} :
    Finding.warning m ∈ d.findingsOf id seen t ↔ t.on ∈ seen ∧ m = duplicateWarning id t.on := by
  by_cases hs : t.on ∈ seen <;> simp [findingsOf, transitionFindings, duplicateWarning, ht, hs]

theorem transitionFindings_cons : d.transitionFindings id seen (t :: ts) =
    d.findingsOf id seen t ++ d.transitionFindings id (t.on :: seen) ts := by
  simp [findingsOf, transitionFindings]

/-- What is found of a transition depends on which triggers stand in front of it, not on their order. -/
theorem findingsOf_congr {seen' : List String} (h : t.on ∈ seen ↔ t.on ∈ seen') :
    d.findingsOf id seen t = d.findingsOf id seen' t := by
  simp [findingsOf, transitionFindings, h]

theorem transitionFindings_concat : d.transitionFindings id seen (ts ++ [t]) =
    d.transitionFindings id seen ts ++ d.findingsOf id (ts.map (·.on) ++ seen) t := by
  induction ts generalizing seen with
  | nil => simp [findingsOf, transitionFindings]
  | cons u ts ih =>
    have same :
        d.findingsOf id (ts.map (·.on) ++ u.on :: seen) t = d.findingsOf id ((u :: ts).map (·.on) ++ seen) t := by
      apply findingsOf_congr
      simp only [List.mem_append, List.mem_cons, List.map_cons, List.cons_append]
      exact or_left_comm
    rw [List.cons_append, transitionFindings_cons, ih, same, transitionFindings_cons, List.append_assoc]

/-- What the check adds when it comes to the transition at a place. -/
def findingsAt (d : Definition) (s : State) (i : Nat) : List Finding :=
  (d.transitionFindings s.id [] (s.transitions.take (i + 1))).drop
    (d.transitionFindings s.id [] (s.transitions.take i)).length

/-- The check warns of the transition at a place. -/
def Warned (d : Definition) (s : State) (i : Nat) : Prop := ∃ m, Finding.warning m ∈ d.findingsAt s i

theorem transitionFindings_take (hi : i < s.transitions.length) :
    d.transitionFindings s.id [] (s.transitions.take (i + 1)) =
      d.transitionFindings s.id [] (s.transitions.take i) ++ d.findingsOf s.id (s.triggersBefore i)
        s.transitions[i] := by
  rw [← List.take_append_getElem hi, transitionFindings_concat, List.append_nil, State.triggersBefore]

theorem findingsAt_eq (hi : i < s.transitions.length) :
    d.findingsAt s i = d.findingsOf s.id (s.triggersBefore i) s.transitions[i] := by
  rw [findingsAt, transitionFindings_take hi, List.drop_left]

/-- The check finds of the transitions of a state what it adds at each place. -/
theorem transitionFindings_eq :
    d.transitionFindings s.id [] s.transitions = (List.range s.transitions.length).flatMap (d.findingsAt s) := by
  have front : ∀ n ≤ s.transitions.length,
      d.transitionFindings s.id [] (s.transitions.take n) = (List.range n).flatMap (d.findingsAt s) := by
    intro n
    induction n with
    | zero => simp [transitionFindings]
    | succ n ih =>
      intro hn
      rw [transitionFindings_take (by omega), ih (by omega), ← findingsAt_eq (by omega), List.range_succ,
        List.flatMap_append, List.flatMap_singleton]
  simpa using front s.transitions.length (by omega)

/-! ## Warnings -/

theorem warned_iff (hi : i < s.transitions.length) (ht : s.transitions[i].on ≠ "") :
    d.Warned s i ↔ s.triggerAt i ∈ s.triggersBefore i := by
  rw [Warned, findingsAt_eq hi, State.triggerAt_eq hi]
  simp [warning_mem_findingsOf ht]

def warning? : Finding → Option String
  | .warning m => some m
  | .error _ => none

theorem warnings_findingsAt (hi : i < s.transitions.length) (ht : s.transitions[i].on ≠ "") :
    (d.findingsAt s i).filterMap warning? =
      if s.place? (s.triggerAt i) ≠ some i then [duplicateWarning s.id (s.triggerAt i)] else [] := by
  simp only [State.place?_triggerAt_ne hi]
  rw [findingsAt_eq hi, State.triggerAt_eq hi, findingsOf]
  by_cases hs : s.transitions[i].on ∈ s.triggersBefore i <;> cases hf : d.find? s.transitions[i].to <;>
    simp [transitionFindings, warning?, duplicateWarning, ht, hs, hf]

/-- The warnings about the transitions of a state are those about its silent places, in order. -/
theorem warnings_transitionFindings (ht : ∀ t ∈ s.transitions, t.on ≠ "") :
    (d.transitionFindings s.id [] s.transitions).filterMap warning? =
      s.silent.map fun i => duplicateWarning s.id (s.triggerAt i) := by
  have front : ∀ n ≤ s.transitions.length,
      ((List.range n).flatMap (d.findingsAt s)).filterMap warning? =
        ((List.range n).filter fun i => s.place? (s.triggerAt i) ≠ some i).map
          fun i => duplicateWarning s.id (s.triggerAt i) := by
    intro n
    induction n with
    | zero => simp
    | succ n ih =>
      intro hn
      have last := warnings_findingsAt (d := d) (i := n) (by omega) (ht _ (List.getElem_mem (by omega)))
      simp only [List.range_succ, List.flatMap_append, List.flatMap_singleton, List.filterMap_append,
        List.filter_append, List.map_append, ih (by omega), last]
      split <;> simp [*]
  rw [transitionFindings_eq]
  apply front
  omega

/-- The warnings of a definition whose transitions have triggers: about silent places, actions and states. -/
theorem warnings_eq (ht : ∀ s ∈ d.states, ∀ t ∈ s.transitions, t.on ≠ "") :
    d.warnings = (d.states.flatMap fun s => s.silent.map fun i => duplicateWarning s.id (s.triggerAt i)) ++
      d.actionWarnings ++ d.reachWarnings := by
  have transitions : d.allTransitionFindings.filterMap warning? =
      d.states.flatMap fun s => s.silent.map fun i => duplicateWarning s.id (s.triggerAt i) := by
    rw [allTransitionFindings, List.filterMap_flatMap]
    apply List.flatMap_congr
    intro s hs
    exact warnings_transitionFindings (ht s hs)
  rw [← transitions]
  rfl

end Definition

/-- Duplicate triggers are reported exactly where transitions can never fire. In a definition that the check finds no
errors in, the check warns of the transition at a place of a state exactly where no type of event leads to that place.
A transition without a warning is the one that its own trigger finds, and one with a warning stands behind the one that
its trigger finds. These are all the warnings there are about triggers, each told as often as it has places. -/
theorem duplicate_warnings_exact (d : Definition) (found : Findings) (h : d.check? = .ok found)
    (he : found.errors = []) :
    (found.warnings =
      (d.states.flatMap fun s => s.silent.map fun i => Definition.duplicateWarning s.id (s.triggerAt i)) ++
        d.actionWarnings ++ d.reachWarnings) ∧
    ∀ s ∈ d.states,
      (∀ type, s.find? type = (s.place? type).bind fun i => s.transitions[i]?) ∧
      ∀ i < s.transitions.length,
        (d.Warned s i ↔ ∀ type, s.place? type ≠ some i) ∧
        (¬ d.Warned s i → s.place? (s.triggerAt i) = some i) ∧
        (d.Warned s i → ∃ j < i, s.triggerAt j = s.triggerAt i ∧ s.place? (s.triggerAt i) = some j) := by
  rw [Definition.check?_ok h] at he ⊢
  have formed := Definition.errors_eq_nil.mp he
  have triggers : ∀ s ∈ d.states, ∀ t ∈ s.transitions, t.on ≠ "" :=
    fun s hs t ht => (formed.transitions s hs t ht).1
  refine ⟨Definition.warnings_eq triggers, ?_⟩
  intro s hs
  refine ⟨s.find?_eq, ?_⟩
  intro i hi
  have warned := Definition.warned_iff (d := d) hi (triggers s hs _ (List.getElem_mem hi))
  have never := State.place?_triggerAt_ne hi
  refine ⟨?_, ?_, ?_⟩
  · rw [State.place?_ne_iff, never, warned]
  · intro hw
    by_contra hne
    exact hw (warned.mpr (never.mp hne))
  · intro hw
    exact State.exists_place? (warned.mp hw) hi

/-- The state of a door that is knocked at three times and rung at once. -/
def shut : State :=
  ⟨"shut",
    [⟨"knock", "open", []⟩, ⟨"knock", "shut", []⟩, ⟨"ring", "open", []⟩, ⟨"knock", "open", []⟩], ""⟩

def door : Definition :=
  ⟨"door", 1, "shut", [shut, ⟨"open", [], ""⟩], "", ""⟩

/-- Only the first knock and the ring can fire, and the other two knocks are told. -/
theorem duplicate_warnings_exact_door : ∃ found, door.check? = .ok found ∧ found.errors = [] ∧
    found.warnings = [Definition.duplicateWarning "shut" "knock", Definition.duplicateWarning "shut" "knock"] ∧
    (¬ door.Warned shut 0 ∧ door.Warned shut 1 ∧ ¬ door.Warned shut 2 ∧ door.Warned shut 3) ∧
    shut.place? "knock" = some 0 ∧ shut.place? "ring" = some 2 := by
  have checked : door.check? = .ok ⟨door.errors, door.warnings⟩ := rfl
  have sound : door.errors = [] := by decide +kernel
  obtain ⟨warnings, places⟩ := duplicate_warnings_exact door _ checked sound
  obtain ⟨-, exact⟩ := places shut (by simp [door])
  have told :
      door.warnings = [Definition.duplicateWarning "shut" "knock", Definition.duplicateWarning "shut" "knock"] := by
    apply warnings.trans
    decide +kernel
  have knock : shut.place? "knock" = some 0 := by decide +kernel
  have ring : shut.place? "ring" = some 2 := by decide +kernel
  refine ⟨_, checked, sound, told, ⟨?_, ?_, ?_, ?_⟩, knock, ring⟩
  · intro hw
    exact (exact 0 (by decide)).1.mp hw "knock" knock
  · apply (exact 1 (by decide)).1.mpr
    apply State.place?_ne_iff.mpr
    decide +kernel
  · intro hw
    exact (exact 2 (by decide)).1.mp hw "ring" ring
  · apply (exact 3 (by decide)).1.mpr
    apply State.place?_ne_iff.mpr
    decide +kernel

end LoanLedger.Workflow
