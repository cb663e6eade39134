import LoanLedger.Proofs.Identity
import LoanLedger.Proofs.Loading
import LoanLedger.Proofs.Validity
import LoanLedger.Workflow.Source

/-!
# The gate

* `Numeral.IsShort n` : the number can be written;
* `Source.isShort_version` : so can the version of every definition that a source describes, as its document has a
  checksum;
* `gate_exact` : the check reports no errors exactly for definitions that are well-formed, and of those that sources
  describe exactly these can be used.
-/

namespace LoanLedger

/-! ## Numbers that can be written -/

namespace Numeral

variable {n : Int}

/-- The number has no more digits than are ever written. -/
def IsShort (n : Int) : Prop := n.natAbs < Nat.pow 10 digitLimit

theorem ofInt?_ok : (∃ s, ofInt? n = .ok s) ↔ IsShort n := by
  unfold ofInt? IsShort
  by_cases h : n.natAbs < Nat.pow 10 digitLimit
  · exact ⟨fun _ => h, fun _ => ⟨_, if_pos h⟩⟩
  · rw [if_neg h]
    exact ⟨nofun, fun h' => absurd h' h⟩

theorem isShort_of_lt {k : Nat} (h : n.natAbs < Nat.pow 10 k) (hk : k ≤ digitLimit) : IsShort n := by
  have mono {i j : Nat} (h : i ≤ j) : Nat.pow 10 i ≤ Nat.pow 10 j := Nat.pow_le_pow_right (by decide) h
  exact Nat.lt_of_lt_of_le h (mono hk)

theorem natAbs_signed (neg : Bool) (k : Nat) : (if neg then -(k : Int) else k).natAbs = k := by
  split
  · exact (Int.natAbs_neg _).trans (Int.natAbs_natCast k)
  · exact Int.natAbs_natCast k

/-- A number that a text writes is no longer than the text may be. -/
theorem isShort_of_toInt? {s : String} (h : toInt? s = .ok n) : IsShort n := by
  unfold toInt? at h
  split at h
  split at h
  · cases h
  · next ds _ =>
    split at h
    · cases h
    · next hd =>
      split at h
      · cases h
      · next hl =>
        have digits : ds.all Char.isDigit = true := by
          simp only [Bool.or_eq_true, not_or, Bool.not_eq_true', Bool.not_eq_false] at hd
          exact hd.2
        have bound := digitsValue_lt (List.all_eq_true.mp digits)
        cases h
        exact isShort_of_lt (k := ds.length) (lt_of_eq_of_lt (natAbs_signed _ _) bound) (by omega)

end Numeral

/-- The whole part of a number of the format can be written. -/
theorem Binary64.isShort_of_truncate? {x : Binary64} {n : Int} (hx : x.IsNumber) (h : x.truncate? = some n) :
    Numeral.IsShort n := by
  cases x with
  | nan | infinity => cases h
  | finite neg m e =>
    have mantissa : m < Nat.pow 2 53 := hx.lt
    have whole : (if 0 ≤ e then m * Nat.pow 2 e.toNat else m / Nat.pow 2 (-e).toNat) < Nat.pow 2 (53 + e.toNat) := by
      split
      · have unit : 0 < Nat.pow 2 e.toNat := Nat.pow_pos (by decide)
        exact Nat.lt_of_lt_of_eq (Nat.mul_lt_mul_of_pos_right mantissa unit) (Nat.pow_add 2 53 e.toNat).symm
      · next he =>
        rw [show e.toNat = 0 by omega]
        exact Nat.lt_of_le_of_lt (Nat.div_le_self _ _) mantissa
    have powers : Nat.pow 2 (53 + e.toNat) ≤ Nat.pow 10 (53 + e.toNat) := Nat.pow_le_pow_left (by decide) _
    have most := hx.most
    refine Numeral.isShort_of_lt (k := 53 + e.toNat) (Nat.lt_of_lt_of_le ?_ powers)
      (show 53 + e.toNat ≤ 4300 by omega)
    cases h
    exact lt_of_eq_of_lt (Numeral.natAbs_signed neg _) whole

theorem Numeral.isShort_of_ofValue {style : Json.Style} {n : Int} {j : Json}
    (h : Json.ofValue style (.int n) = .ok j) : IsShort n := by
  unfold Json.ofValue at h
  split at h
  · next hn => exact hn
  · cases h

namespace Workflow

variable {v : Value} {n : Int} {j : Json} {d : Definition} {source checksum : String} {s : Source}

/-! ## Versions -/

/-- A loaded value that has canonical JSON gives a version that can be written. -/
theorem isShort_of_wholeOf (hv : v.IsLoaded) (hj : canonicalJson? v = .ok j) (h : wholeOf v = .number n) :
    Numeral.IsShort n := by
  have read {s : String} (h : wholeOf.read s = .number n) : Numeral.IsShort n := by
    unfold wholeOf.read at h
    split at h
    · next hs =>
      cases h
      exact Numeral.isShort_of_toInt? hs
    · cases h
  cases v with
  | bool b =>
    cases h
    exact Numeral.isShort_of_lt (k := 1) (by cases b <;> decide) (by decide)
  | int m =>
    cases h
    rw [canonicalJson?_scalar rfl] at hj
    exact Numeral.isShort_of_ofValue hj
  | float x =>
    cases x with
    | nan | infinity => cases h
    | finite neg m e =>
      exact Binary64.isShort_of_truncate? (x := .finite neg m e) hv (congrArg some (Whole.number.inj h))
  | bytes bs => exact read h
  | text s => exact read h
  | null | date | time | list | tuple | set | map => cases h
  | decimal | uuid | tag | other => exact hv.elim

/-- The definition of a loaded document has a version that can be written. -/
theorem isShort_of_load? (hv : v.IsLoaded) (h : Definition.load? source v = .ok d) : Numeral.IsShort d.version := by
  obtain ⟨sum, hs, h⟩ := bind_ok h
  obtain ⟨es, -, he, -, hver, -⟩ := Definition.ofValue?_ok (mapError_ok h)
  have loaded : (if v.isTruthy then v else .map []).IsLoaded := by
    split
    · exact hv
    · trivial
  obtain ⟨text, ht, -⟩ := map_ok (mapError_ok hs)
  rw [canonicalText?_eq] at ht
  obtain ⟨j, hj, -⟩ := map_ok ht
  rw [he] at loaded hj
  have version :=
    Alike.getD_field? (s := "version") (d := .int 0) ⟨loaded, loaded, j, hj, hj⟩ (by decide) (by decide)
      trivial canonicalJson?_zero
  obtain ⟨k, hk, -⟩ := version.json
  exact isShort_of_wholeOf version.left hk (versionOf_ok hver)

theorem isLoaded_bundledDocument : bundledDocument.IsLoaded := by
  unfold bundledDocument
  simp [bundledState, bundledTransition, Value.record, Value.IsLoaded, Value.HaveLoaded, Value.AreLoaded,
    Value.IsLoadedKey, Value.sameKey, Value.text?, Value.number?]

theorem Source.isShort_version (h : s.load? = .ok d) : Numeral.IsShort d.version := by
  obtain ⟨v, hv, h⟩ := bind_ok h
  refine isShort_of_load? ?_ (mapError_ok h)
  cases s with
  | bundled =>
    cases hv
    exact isLoaded_bundledDocument
  | file name text =>
    cases text with
    | none => cases hv
    | some text => exact Yaml.isLoaded_of_read? (mapError_ok hv)

/-! ## The check -/

theorem Definition.check?_ok {found : Findings} (h : d.check? = .ok found) : found = ⟨d.errors, d.warnings⟩ := by
  unfold check? at h
  split at h
  · obtain ⟨_, -, rfl⟩ := map_ok h
    rfl
  · exact (Except.ok.inj h).symm

theorem Definition.check?_of_isShort (h : d.version ≤ 0 → Numeral.IsShort d.version) :
    d.check? = .ok ⟨d.errors, d.warnings⟩ := by
  unfold check?
  split
  · next hv =>
    obtain ⟨text, ht⟩ := Numeral.ofInt?_ok.mpr (h hv)
    rw [ht]
    rfl
  · rfl

/-- The check gives its findings, unless the version is not positive and cannot be written. -/
theorem Definition.check?_isOk :
    (∃ found, d.check? = .ok found) ↔ (d.version ≤ 0 → Numeral.IsShort d.version) := by
  refine ⟨fun ⟨found, h⟩ hv => ?_, fun h => ⟨_, check?_of_isShort h⟩⟩
  rw [check?, if_pos hv] at h
  obtain ⟨text, ht, -⟩ := map_ok h
  exact Numeral.ofInt?_ok.mp ⟨text, ht⟩

theorem Definition.check?_errors :
    (∃ found, d.check? = .ok found ∧ found.errors = []) ↔ d.IsWellFormed := by
  refine ⟨fun ⟨found, h, he⟩ => ?_, fun h => ?_⟩
  · rw [check?_ok h] at he
    exact errors_eq_nil.mp he
  · exact ⟨_, check?_of_isShort fun hv => absurd h.version (by omega), errors_eq_nil.mpr h⟩

theorem Source.active_of_load? {found : Findings} (h : s.load? = .ok d) (hc : d.check? = .ok found) :
    s.active.2 = if found.errors = [] then .ok d
      else .error (Failure.definitionInvalid s.name found.errors).report := by
  unfold active Definition.admit
  rw [h]
  dsimp only
  rw [hc]
  by_cases he : found.errors = []
  · simp [he, Except.mapError]
  · simp [he, Except.mapError, ReadError.report]

/-- A definition that cannot be used is reported with its source and all its errors, in their order. -/
theorem report_definitionInvalid (source : String) (errors : List String) :
    (Failure.definitionInvalid source errors).report =
      { name := "ProcessDefinitionInvalidError"
        message := some ("Invalid process definition " ++ source ++ ": " ++ Failure.summary errors)
        code := some "PROCESS_DEFINITION_INVALID"
        attributes := [("source", .text source), ("errors", .list (errors.map .text))] } := by
  have labels : (errors.map Value.text).map Value.label = errors := by
    rw [List.map_map]
    exact (List.map_congr_left fun _ _ => rfl).trans (List.map_id errors)
  have message : (Failure.definitionInvalid source errors).message? =
      some ("Invalid process definition " ++ source ++ ": " ++ Failure.summary
        ((errors.map Value.text).map Value.label)) :=
    rfl
  rw [labels] at message
  rw [Failure.report, message]
  rfl

/-- The gate is exact. The check of a definition gives its findings, unless the version is not positive and cannot be
written, and reports no errors exactly when the definition is well-formed. Of the definitions that sources describe
exactly the well-formed ones can be used, and the others fail with all the errors that the check reports. -/
theorem gate_exact :
    (∀ d : Definition,
      ((∃ found, d.check? = .ok found) ↔ (d.version ≤ 0 → Numeral.IsShort d.version)) ∧
      ((∃ found, d.check? = .ok found ∧ found.errors = []) ↔ d.IsWellFormed)) ∧
    ∀ (s : Source) (d : Definition), s.load? = .ok d →
      (s.active.2 = .ok d ↔ d.IsWellFormed) ∧
      (¬ d.IsWellFormed → ∃ found, d.check? = .ok found ∧ found.errors ≠ [] ∧
        s.active.2 = .error {
          name := "ProcessDefinitionInvalidError"
          message := some ("Invalid process definition " ++ s.name ++ ": " ++ Failure.summary found.errors)
          code := some "PROCESS_DEFINITION_INVALID"
          attributes := [("source", .text s.name), ("errors", .list (found.errors.map .text))] }) := by
  refine ⟨fun d => ⟨Definition.check?_isOk, Definition.check?_errors⟩, fun s d h => ?_⟩
  have checked := Definition.check?_of_isShort fun _ => Source.isShort_version h
  have active := Source.active_of_load? h checked
  by_cases hw : d.IsWellFormed
  · rw [active, if_pos (Definition.errors_eq_nil.mpr hw)]
    exact ⟨⟨fun _ => hw, fun _ => rfl⟩, fun hn => absurd hw hn⟩
  · have errors : d.errors ≠ [] := fun he => hw (Definition.errors_eq_nil.mp he)
    rw [if_neg errors, report_definitionInvalid] at active
    refine ⟨⟨fun h => ?_, fun h => absurd h hw⟩, fun _ => ⟨_, checked, errors, active⟩⟩
    rw [active] at h
    cases h

def blank : Source := .file "loan.yaml" (some "")

/-- The bundled definition can be used, and that of an empty file cannot. -/
theorem gate_exact_for_files :
    (∃ d, Source.bundled.load? = .ok d ∧ d.IsWellFormed ∧ Source.bundled.active.2 = .ok d) ∧
      ∃ d found, blank.load? = .ok d ∧ ¬ d.IsWellFormed ∧ d.check? = .ok found ∧ found.errors ≠ [] ∧
        blank.active.2 = .error {
          name := "ProcessDefinitionInvalidError"
          message := some ("Invalid process definition loan.yaml: " ++ Failure.summary found.errors)
          code := some "PROCESS_DEFINITION_INVALID"
          attributes := [("source", .text "loan.yaml"), ("errors", .list (found.errors.map .text))] } := by
  have bundled : Source.bundled.load?.toOption.map (·.errors) = some [] := by decide +kernel
  have empty : blank.load?.toOption.map (·.version) = some 0 := by decide +kernel
  have name : blank.name = "loan.yaml" := by decide +kernel
  obtain ⟨d, hd, he⟩ := Option.map_eq_some_iff.mp bundled
  obtain ⟨d', hd', hv⟩ := Option.map_eq_some_iff.mp empty
  have loaded := ok_of_toOption hd
  have loaded' := ok_of_toOption hd'
  have sound : d.IsWellFormed := Definition.errors_eq_nil.mp he
  have broken : ¬ d'.IsWellFormed := fun h => absurd h.version (by omega)
  obtain ⟨found, checked, errors, active⟩ := (gate_exact.2 blank d' loaded').2 broken
  rw [name] at active
  exact ⟨⟨d, loaded, sound, (gate_exact.2 _ d loaded).1.mpr sound⟩,
    d', found, loaded', broken, checked, errors, active⟩

end Workflow

end LoanLedger
