import LoanLedger.Workflow.Check

/-!
# What a valid definition declares

* `Definition.IsWellFormed x` : the name is not empty, the version is positive, there are states with ids of their own,
  and the initial state and the destinations of all transitions, which have triggers, are among them;
* `Definition.errors_eq_nil` : the check finds no errors exactly then;
* `Definition.version_pos`, `Definition.id_ne_empty`, `Definition.isSome_initial`, `Definition.isSome_to` : what follows
  for a valid definition.
-/

namespace LoanLedger.Workflow.Definition

variable {x : Definition} {s : State} {tr : Transition} {id : String}

/-- What the definition declares goes together. -/
structure IsWellFormed (x : Definition) : Prop where
  name : x.name ≠ ""
  version : 0 < x.version
  states : x.states ≠ []
  ids : ∀ id ∈ x.stateIds, id ≠ ""
  distinct : x.stateIds.Nodup
  initial : x.initialState ∈ x.stateIds
  transitions : ∀ s ∈ x.states, ∀ t ∈ s.transitions, t.on ≠ "" ∧ t.to ∈ x.stateIds

theorem isSome_find? : (x.find? id).isSome ↔ id ∈ x.stateIds := by
  simp [find?, stateIds]

theorem find?_eq_none : x.find? id = none ↔ id ∉ x.stateIds := by
  rw [← isSome_find?, Option.not_isSome_iff_eq_none]

theorem id_of_find? {s : State} (h : x.find? id = some s) : s.id = id := by
  simpa using List.find?_some h

/-! ## Errors -/

theorem identityErrors_eq_nil : x.identityErrors = [] ↔ x.name ≠ "" ∧ 0 < x.version := by
  rw [identityErrors, List.append_eq_nil_iff]
  refine and_congr ?_ ?_
  · split <;> simp [*]
  · split <;> simp <;> omega

theorem idErrors_eq_nil {ids : List String} : ∀ {seen : List String}, idErrors seen ids = [] ↔
    (∀ id ∈ ids, id ≠ "") ∧ ids.Nodup ∧ ∀ id ∈ ids, id ∉ seen := by
  induction ids with
  | nil => simp [idErrors]
  | cons id ids ih =>
    intro seen
    rw [idErrors]
    by_cases hid : id = ""
    · simp [hid]
    · by_cases hs : id ∈ seen
      · simp [hid, hs]
      · -- from here on the id counts as seen
        have apart :
            (∀ other ∈ ids, other ∉ id :: seen) ↔ id ∉ ids ∧ ∀ other ∈ ids, other ∉ seen := by
          simp only [List.mem_cons, not_or, forall_and, List.forall_mem_ne']
        rw [if_neg hid, if_neg (by simpa using hs), ih, apart]
        simp only [List.forall_mem_cons, List.nodup_cons]
        exact ⟨fun ⟨hn, hd, hm, ha⟩ => ⟨⟨hid, hn⟩, ⟨hm, hd⟩, hs, ha⟩,
          fun ⟨⟨_, hn⟩, ⟨hm, hd⟩, _, ha⟩ => ⟨hn, hd, hm, ha⟩⟩

theorem stateErrors_eq_nil : x.stateErrors = [] ↔
    x.states ≠ [] ∧ (∀ id ∈ x.stateIds, id ≠ "") ∧ x.stateIds.Nodup := by
  rw [stateErrors, List.append_eq_nil_iff, idErrors_eq_nil]
  refine and_congr ?_ (and_congr_right' (and_iff_left fun id _ => List.not_mem_nil))
  split <;> simp_all

theorem initialErrors_eq_nil : x.initialErrors = [] ↔ x.initialState ≠ "" ∧ x.initialState ∈ x.stateIds := by
  rw [initialErrors]
  by_cases h : x.initialState = ""
  · simp [h]
  · by_cases hm : x.initialState ∈ x.stateIds
    · simp [h, hm, find?_eq_none]
    · simp [h, hm, find?_eq_none]

/-- No error is found of transitions exactly when all have triggers and declared destinations. -/
theorem error_notMem_transitionFindings {ts : List Transition} : ∀ {seen : List String},
    (∀ m, Finding.error m ∉ x.transitionFindings id seen ts) ↔
      ∀ t ∈ ts, t.on ≠ "" ∧ t.to ∈ x.stateIds := by
  induction ts with
  | nil => simp [transitionFindings]
  | cons t ts ih =>
    intro seen
    rw [transitionFindings, List.forall_mem_cons, ← @ih (t.on :: seen)]
    simp only [List.mem_append, not_or, forall_and]
    refine and_congr_left' (and_congr ?_ ?_)
    · by_cases h : t.on = ""
      · simp [h]
      · by_cases hs : t.on ∈ seen <;> simp [h, hs]
    · by_cases hm : t.to ∈ x.stateIds <;> simp [hm, find?_eq_none]

theorem error_notMem_allTransitionFindings : (∀ m, Finding.error m ∉ x.allTransitionFindings) ↔
    ∀ s ∈ x.states, ∀ t ∈ s.transitions, t.on ≠ "" ∧ t.to ∈ x.stateIds := by
  simp only [allTransitionFindings, List.mem_flatMap, not_exists, not_and]
  exact ⟨fun h s hs => error_notMem_transitionFindings.mp fun m => h m s hs,
    fun h m s hs => error_notMem_transitionFindings.mpr (h s hs) m⟩

/-- The check finds no errors exactly when the definition is well-formed. -/
theorem errors_eq_nil : x.errors = [] ↔ x.IsWellFormed := by
  rw [errors]
  simp only [List.append_eq_nil_iff, identityErrors_eq_nil, stateErrors_eq_nil, initialErrors_eq_nil,
    List.filterMap_eq_nil_iff]
  constructor
  · rintro ⟨⟨⟨⟨name, version⟩, states, ids, distinct⟩, -, initial⟩, found⟩
    have clean : ∀ m, Finding.error m ∉ x.allTransitionFindings := fun m hm => nomatch found _ hm
    exact ⟨name, version, states, ids, distinct, initial, error_notMem_allTransitionFindings.mp clean⟩
  · intro h
    refine ⟨⟨⟨⟨h.name, h.version⟩, h.states, h.ids, h.distinct⟩, h.ids _ h.initial, h.initial⟩,
      fun f hf => ?_⟩
    cases f with
    | error m => exact absurd hf (error_notMem_allTransitionFindings.mpr h.transitions m)
    | warning => rfl

theorem isValid_iff : x.isValid = true ↔ x.IsWellFormed := by
  rw [isValid, List.isEmpty_iff, errors_eq_nil]

/-! ## Valid definitions -/

theorem version_pos (h : x.isValid = true) : 0 < x.version :=
  (isValid_iff.mp h).version

theorem id_ne_empty (h : x.isValid = true) (hs : s ∈ x.states) : s.id ≠ "" :=
  (isValid_iff.mp h).ids s.id (List.mem_map_of_mem hs)

theorem isSome_initial (h : x.isValid = true) : (x.find? x.initialState).isSome :=
  isSome_find?.mpr (isValid_iff.mp h).initial

theorem isSome_to {state type : String} (h : x.isValid = true) (hs : x.find? state = some s)
    (ht : s.find? type = some tr) : (x.find? tr.to).isSome :=
  isSome_find?.mpr ((isValid_iff.mp h).transitions s (List.mem_of_find?_eq_some hs) tr (List.mem_of_find?_eq_some ht)).2

end LoanLedger.Workflow.Definition
