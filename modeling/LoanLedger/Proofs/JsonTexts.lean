import LoanLedger.Json.Basic
import LoanLedger.Proofs.Binary64.Text

/-!
# JSON with other texts

* `JsonOf.IsProper j` : each binary fraction in `j` is a number of the format; `isProper_map_iff` : whatever its texts
  are;
* `JsonOf.map_injective` : different values remain different with other texts, if different texts do;
* `JsonOf.AllTexts P j` : each text of `j` has the property; `map_eq_self_iff` : a value is left as it is just if each
  of its texts is.
-/

namespace LoanLedger

namespace JsonOf

variable {τ σ : Type}

mutual

/-- Each binary fraction at any depth is a number of the format. -/
def IsProper : JsonOf τ → Prop
  | float x => x.IsNumber
  | list vs => AreProper vs
  | object ms => HaveProper ms
  | _ => True

def AreProper : List (JsonOf τ) → Prop
  | [] => True
  | v :: vs => IsProper v ∧ AreProper vs

def HaveProper : List (τ × JsonOf τ) → Prop
  | [] => True
  | (_, v) :: ms => IsProper v ∧ HaveProper ms

end

theorem areProper_iff {vs : List (JsonOf τ)} : AreProper vs ↔ ∀ v ∈ vs, v.IsProper := by
  induction vs with
  | nil => simp [AreProper]
  | cons v vs ih => simp [AreProper, ih]

theorem haveProper_iff {ms : List (τ × JsonOf τ)} : HaveProper ms ↔ ∀ m ∈ ms, m.2.IsProper := by
  induction ms with
  | nil => simp [HaveProper]
  | cons m ms ih =>
    obtain ⟨name, v⟩ := m
    simp [HaveProper, ih]

/-! ## Other texts -/

variable {f : τ → σ}

mutual

/-- The numbers of a value do not depend on its texts. -/
theorem isProper_map_iff (f : τ → σ) (j : JsonOf τ) : (j.map f).IsProper ↔ j.IsProper := by
  cases j with
  | list vs => exact areProper_mapList_iff f vs
  | object ms => exact haveProper_mapMembers_iff f ms
  | _ => exact Iff.rfl
termination_by structural j

theorem areProper_mapList_iff (f : τ → σ) (vs : List (JsonOf τ)) : AreProper (mapList f vs) ↔ AreProper vs := by
  cases vs with
  | nil => exact Iff.rfl
  | cons v vs => exact and_congr (isProper_map_iff f v) (areProper_mapList_iff f vs)
termination_by structural vs

theorem haveProper_mapMembers_iff (f : τ → σ) (ms : List (τ × JsonOf τ)) :
    HaveProper (mapMembers f ms) ↔ HaveProper ms := by
  cases ms with
  | nil => exact Iff.rfl
  | cons m ms => exact and_congr (isProper_map_iff f m.2) (haveProper_mapMembers_iff f ms)
termination_by structural ms

end

mutual

theorem map_map {ρ : Type} (f : τ → σ) (g : σ → ρ) (j : JsonOf τ) : (j.map f).map g = j.map (g ∘ f) := by
  cases j with
  | list vs => exact congrArg list (mapList_mapList f g vs)
  | object ms => exact congrArg object (mapMembers_mapMembers f g ms)
  | _ => rfl
termination_by structural j

theorem mapList_mapList {ρ : Type} (f : τ → σ) (g : σ → ρ) (vs : List (JsonOf τ)) :
    mapList g (mapList f vs) = mapList (g ∘ f) vs := by
  cases vs with
  | nil => rfl
  | cons v vs => rw [mapList, mapList, mapList, map_map f g v, mapList_mapList f g vs]
termination_by structural vs

theorem mapMembers_mapMembers {ρ : Type} (f : τ → σ) (g : σ → ρ) (ms : List (τ × JsonOf τ)) :
    mapMembers g (mapMembers f ms) = mapMembers (g ∘ f) ms := by
  cases ms with
  | nil => rfl
  | cons m ms =>
    obtain ⟨name, v⟩ := m
    rw [mapMembers, mapMembers, mapMembers, map_map f g v, mapMembers_mapMembers f g ms]
    rfl
termination_by structural ms

end

mutual

/-- Different values remain different with other texts, if different texts do. -/
theorem eq_of_map_eq (hf : Function.Injective f) (j : JsonOf τ) {k : JsonOf τ} (h : j.map f = k.map f) : j = k := by
  cases j with
  | null => cases k <;> first | rfl | cases h
  | bool b => cases k <;> cases h; rfl
  | int n => cases k <;> cases h; rfl
  | float x => cases k <;> cases h; rfl
  | text s =>
    cases k with
    | text t => exact congrArg text (hf (text.inj h))
    | _ => cases h
  | list vs =>
    cases k with
    | list ws => exact congrArg list (eq_of_mapList_eq hf vs (list.inj h))
    | _ => cases h
  | object ms =>
    cases k with
    | object ns => exact congrArg object (eq_of_mapMembers_eq hf ms (object.inj h))
    | _ => cases h
termination_by structural j

theorem eq_of_mapList_eq (hf : Function.Injective f) (vs : List (JsonOf τ)) {ws : List (JsonOf τ)}
    (h : mapList f vs = mapList f ws) : vs = ws := by
  cases vs with
  | nil => cases ws <;> first | rfl | cases h
  | cons v vs =>
    cases ws with
    | nil => cases h
    | cons w ws =>
      obtain ⟨first, others⟩ := List.cons.inj h
      rw [eq_of_map_eq hf v first, eq_of_mapList_eq hf vs others]
termination_by structural vs

theorem eq_of_mapMembers_eq (hf : Function.Injective f) (ms : List (τ × JsonOf τ)) {ns : List (τ × JsonOf τ)}
    (h : mapMembers f ms = mapMembers f ns) : ms = ns := by
  cases ms with
  | nil => cases ns <;> first | rfl | cases h
  | cons m ms =>
    cases ns with
    | nil => cases h
    | cons n ns =>
      obtain ⟨first, others⟩ := List.cons.inj h
      obtain ⟨name, value⟩ := Prod.mk.inj first
      rw [Prod.ext (hf name) (eq_of_map_eq hf m.2 value), eq_of_mapMembers_eq hf ms others]
termination_by structural ms

end

theorem map_injective (hf : Function.Injective f) : Function.Injective (map f) := fun j _ h => eq_of_map_eq hf j h

/-! ## Texts of one kind -/

mutual

/-- Each text at any depth is of this kind, and each name. -/
def AllTexts (P : τ → Prop) : JsonOf τ → Prop
  | text s => P s
  | list vs => AllTextsOf P vs
  | object ms => AllTextsIn P ms
  | _ => True

def AllTextsOf (P : τ → Prop) : List (JsonOf τ) → Prop
  | [] => True
  | v :: vs => AllTexts P v ∧ AllTextsOf P vs

def AllTextsIn (P : τ → Prop) : List (τ × JsonOf τ) → Prop
  | [] => True
  | (name, v) :: ms => P name ∧ AllTexts P v ∧ AllTextsIn P ms

end

variable {g : τ → τ}

mutual

theorem map_eq_self_iff (j : JsonOf τ) : j.map g = j ↔ j.AllTexts fun s => g s = s := by
  cases j with
  | null | bool | int | float => exact iff_of_true rfl trivial
  | text s => rw [map, text.injEq, AllTexts]
  | list vs => rw [map, list.injEq, AllTexts, mapList_eq_self_iff vs]
  | object ms => rw [map, object.injEq, AllTexts, mapMembers_eq_self_iff ms]
termination_by structural j

theorem mapList_eq_self_iff (vs : List (JsonOf τ)) : mapList g vs = vs ↔ AllTextsOf (fun s => g s = s) vs := by
  cases vs with
  | nil => exact iff_of_true rfl trivial
  | cons v vs => rw [mapList, List.cons.injEq, map_eq_self_iff v, mapList_eq_self_iff vs, AllTextsOf]
termination_by structural vs

theorem mapMembers_eq_self_iff (ms : List (τ × JsonOf τ)) :
    mapMembers g ms = ms ↔ AllTextsIn (fun s => g s = s) ms := by
  cases ms with
  | nil => exact iff_of_true rfl trivial
  | cons m ms =>
    obtain ⟨name, v⟩ := m
    rw [mapMembers, List.cons.injEq, Prod.mk.injEq, map_eq_self_iff v, mapMembers_eq_self_iff ms, AllTextsIn, and_assoc]
termination_by structural ms

end

end JsonOf

end LoanLedger
