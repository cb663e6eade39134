import LoanLedger.Proofs.Members
import LoanLedger.Workflow.Reader
import Mathlib.Data.List.Forall2

/-!
# Documents with the same canonical JSON

* `Alike v w` : loaded values with the same canonical JSON;
* `Alike.field`, `Alike.elements`, `Alike.trigger` : so are the values of their fields, the elements of their lists, and
  their triggers where each is under one key;
* `Alike.textOf_eq`, `Alike.version_eq` : scalars that are alike have the same text, and give the same version.
-/

namespace LoanLedger

def Value.isScalar : Value → Bool
  | list _ | tuple _ | map _ => false
  | _ => true

namespace Workflow

variable {v w : Value} {vs ws : List Value} {es fs : Entries} {s source source' checksum : String} {j : Json}

/-! ## Values that are alike -/

theorem canonicalJson?_null : canonicalJson? .null = .ok .null := by
  rw [canonicalJson?_of_keys (w := .null) (by rw [canonicalKeys?] <;> simp), Json.ofValue]

/-- Loaded values with the same canonical JSON. -/
structure Alike (v w : Value) : Prop where
  left : v.IsLoaded
  right : w.IsLoaded
  json : ∃ j, canonicalJson? v = .ok j ∧ canonicalJson? w = .ok j

theorem isLoaded_of_get? {k : Value} (h : (Value.map es).IsLoaded) (hv : Entries.get? es k = some v) : v.IsLoaded := by
  obtain ⟨as, k, bs, rfl, -⟩ := Entries.split_of_get? hv
  exact ((Value.haveLoaded_iff.mp h).1 (k, v) (by simp)).2

theorem isLoaded_getD {o : Option Value} {d : Value} (h : ∀ v, o = some v → v.IsLoaded) (hd : d.IsLoaded) :
    (o.getD d).IsLoaded := by
  cases o with
  | none => exact hd
  | some v => exact h v rfl

theorem Alike.members (h : Alike (.map es) (.map fs)) : ∃ ms, Members es ms ∧ Members fs ms := by
  obtain ⟨j, hj, hj'⟩ := h.json
  obtain ⟨ms, rfl, hm⟩ := canonicalJson?_map hj
  obtain ⟨ns, he, hm'⟩ := canonicalJson?_map hj'
  cases he
  exact ⟨ms, hm, hm'⟩

theorem Alike.getD_field? {d : Value} (h : Alike (.map es) (.map fs)) (hs : IsWord s) (hon : s ≠ "on")
    (hd : d.IsLoaded) (hj : canonicalJson? d = .ok j) :
    Alike ((Entries.field? es s).getD d) ((Entries.field? fs s).getD d) := by
  obtain ⟨ms, hm, hm'⟩ := h.members
  exact {
    left := isLoaded_getD (fun v hv => isLoaded_of_get? h.left hv) hd
    right := isLoaded_getD (fun v hv => isLoaded_of_get? h.right hv) hd
    json := sameJson_of_tells hm.nodup (hm.tells_field? h.left hs hon) (hm'.tells_field? h.right hs hon) hj }

theorem Alike.field (h : Alike (.map es) (.map fs)) (hs : IsWord s) (hon : s ≠ "on") :
    Alike (Entries.field es s) (Entries.field fs s) :=
  h.getD_field? hs hon trivial canonicalJson?_null

/-! ## Texts -/

theorem canonicalJson?_scalar (hv : v.isScalar = true) : canonicalJson? v = Json.ofValue Json.document v := by
  refine canonicalJson?_of_keys ?_
  cases v with
  | list | tuple | map => cases hv
  | null | bool | int | float | decimal | text | bytes | uuid | date | time | tag | set | other =>
    rw [canonicalKeys?] <;> simp

theorem trimmed?_of_ne_null (hn : v ≠ .null) : v.trimmed? = v.label?.map Text.trim := by
  unfold Value.trimmed?
  split
  · exact absurd rfl hn
  · rfl

/-- What JSON does not have is written as its label. -/
theorem trimmed?_of_leaf (hn : v ≠ .null) (h : Json.document.leaf v = .ok j) : v.trimmed? = j.toValue.trimmed? := by
  unfold Json.document Json.labelLeaf at h
  dsimp only at h
  split at h
  · next s hl =>
    cases h
    rw [Json.toValue, trimmed?_of_ne_null hn, trimmed?_of_ne_null (by simp), hl, Value.label?_text]
  · cases h

/-- The text of a scalar is that of its JSON. -/
theorem trimmed?_toValue (hv : v.IsLoaded) (hs : v.isScalar = true) (h : canonicalJson? v = .ok j) :
    v.trimmed? = j.toValue.trimmed? := by
  rw [canonicalJson?_scalar hs] at h
  cases v with
  | null | bool | float | text =>
    rw [Json.ofValue] at h
    cases h
    rw [Json.toValue]
  | int n => rw [Json.ofValue_int h, Json.toValue]
  | bytes | date | time | set =>
    unfold Json.ofValue at h
    exact trimmed?_of_leaf (by simp) h
  | list | tuple | map => cases hs
  | decimal | uuid | tag | other => exact hv.elim

theorem Alike.textOf_eq (h : Alike v w) (hv : v.isScalar = true) (hw : w.isScalar = true) : textOf v = textOf w := by
  obtain ⟨j, hj, hj'⟩ := h.json
  unfold textOf
  rw [trimmed?_toValue h.left hv hj, trimmed?_toValue h.right hw hj']

theorem canonicalJson?_text (s : String) : canonicalJson? (.text s) = .ok (.text s) := by
  rw [canonicalJson?_scalar rfl, Json.ofValue]

theorem Alike.text {a b : String} (h : Alike (.text a) (.text b)) : a = b := by
  obtain ⟨j, hj, hj'⟩ := h.json
  rw [canonicalJson?_text] at hj hj'
  exact JsonOf.text.inj (Except.ok.inj (hj.trans hj'.symm))

theorem Alike.symm (h : Alike v w) : Alike w v := by
  obtain ⟨j, hj, hj'⟩ := h.json
  exact ⟨h.right, h.left, j, hj', hj⟩

theorem not_alike_text_map : ¬ Alike (.text s) (.map es) := fun h => by
  obtain ⟨j, hj, hj'⟩ := h.json
  rw [canonicalJson?_text] at hj
  obtain ⟨ms, rfl, -⟩ := canonicalJson?_map hj'
  cases hj

/-! ## Lists -/

def elementsOf : Json → List Json
  | .list js => js
  | _ => []

/-- The elements have these canonical JSON values in turn. -/
abbrev HaveJson : List Value → List Json → Prop := List.Forall₂ fun v j => canonicalJson? v = .ok j

theorem haveJson_of_canonicalList? {js : List Json} (h : canonicalList? vs = .ok ws)
    (hj : Json.ofValues Json.document ws = .ok js) : HaveJson vs js := by
  induction vs generalizing ws js with
  | nil =>
    cases h
    rw [Json.ofValues] at hj
    cases hj
    exact .nil
  | cons v vs ih =>
    obtain ⟨w, us, rfl, hw, hu⟩ := canonicalList?_cons_ok h
    obtain ⟨j, ks, rfl, hj, hk⟩ := Json.ofValues_cons_ok hj
    exact .cons ((canonicalJson?_of_keys hw).trans hj) (ih hu hk)

theorem canonicalJson?_list (h : canonicalJson? (.list vs) = .ok j) : HaveJson vs (elementsOf j) := by
  unfold canonicalJson? at h
  obtain ⟨w, hw, h⟩ := bind_ok h
  rw [canonicalKeys?] at hw
  obtain ⟨ws, hs, rfl⟩ := map_ok hw
  rw [Json.ofValue] at h
  obtain ⟨js, hj, rfl⟩ := map_ok h
  exact haveJson_of_canonicalList? hs hj

theorem elementsOf_scalar (hs : v.isScalar = true) (h : canonicalJson? v = .ok j) : elementsOf j = [] := by
  have leaf (hl : Json.document.leaf v = .ok j) : elementsOf j = [] := by
    obtain ⟨s, rfl⟩ := Json.document_writesTexts.leaf v j hl
    rfl
  rw [canonicalJson?_scalar hs] at h
  cases v with
  | null | bool | float | text | tag =>
    rw [Json.ofValue] at h
    cases h
    rfl
  | int n => rw [Json.ofValue_int h]; rfl
  | decimal | bytes | uuid | date | time | set | other =>
    unfold Json.ofValue at h
    exact leaf h
  | list | tuple | map => cases hs

/-- What counts as absent has no elements. -/
theorem elementsOf_absent (hv : v.isTruthy = false) (h : canonicalJson? v = .ok j) : elementsOf j = [] := by
  cases v with
  | list vs =>
    obtain rfl : vs = [] := by simpa [Value.isTruthy] using hv
    exact List.forall₂_nil_left_iff.mp (canonicalJson?_list h)
  | tuple vs =>
    obtain rfl : vs = [] := by simpa [Value.isTruthy] using hv
    rw [canonicalJson?_of_keys (w := .tuple []) (by rw [canonicalKeys?] <;> simp), Json.ofValue, Json.ofValues] at h
    cases h
    rfl
  | map es =>
    obtain ⟨ms, rfl, -⟩ := canonicalJson?_map h
    rfl
  | null | bool | int | float | decimal | text | bytes | uuid | date | time | tag | set | other =>
    exact elementsOf_scalar rfl h

theorem haveJson_of_listOf? (h : listOf? v = some vs) (hj : canonicalJson? v = .ok j) : HaveJson vs (elementsOf j) := by
  unfold listOf? at h
  cases hv : v.isTruthy with
  | false =>
    rw [hv] at h
    cases h
    rw [elementsOf_absent hv hj]
    exact .nil
  | true =>
    rw [hv] at h
    cases v with
    | list us =>
      cases h
      exact canonicalJson?_list hj
    | null | bool | int | float | decimal | text | bytes | uuid | date | time | tag | tuple | set | map | other =>
      cases h

theorem isLoaded_of_listOf? (h : listOf? v = some vs) (hv : v.IsLoaded) : ∀ u ∈ vs, u.IsLoaded := by
  unfold listOf? at h
  split at h
  · cases h
    exact fun u hu => nomatch hu
  · split at h
    · cases h
      exact Value.areLoaded_iff.mp hv
    · cases h

theorem alike_of_haveJson {js : List Json} (hv : ∀ v ∈ vs, v.IsLoaded) (hw : ∀ w ∈ ws, w.IsLoaded)
    (h : HaveJson vs js) (h' : HaveJson ws js) : List.Forall₂ Alike vs ws := by
  induction h generalizing ws with
  | nil =>
    cases h'
    exact .nil
  | cons hj _ ih =>
    cases h' with
    | cons hj' h' =>
      obtain ⟨hv, hvs⟩ := List.forall_mem_cons.mp hv
      obtain ⟨hw, hws⟩ := List.forall_mem_cons.mp hw
      exact .cons ⟨hv, hw, _, hj, hj'⟩ (ih hvs hws h')

theorem Alike.elements (h : Alike v w) (hv : listOf? v = some vs) (hw : listOf? w = some ws) :
    List.Forall₂ Alike vs ws := by
  obtain ⟨j, hj, hj'⟩ := h.json
  exact alike_of_haveJson (isLoaded_of_listOf? hv h.left) (isLoaded_of_listOf? hw h.right) (haveJson_of_listOf? hv hj)
    (haveJson_of_listOf? hw hj')

/-- What is read from a list is read element by element. -/
theorem forall₂_of_mapM {α : Type} {f : Value → Except ReadError α} :
    ∀ {vs : List Value} {as : List α}, vs.mapM f = .ok as → List.Forall₂ (fun v a => f v = .ok a) vs as := by
  intro vs
  induction vs with
  | nil =>
    intro as h
    cases h
    exact .nil
  | cons v vs ih =>
    intro as h
    rw [List.mapM_cons] at h
    obtain ⟨a, ha, h⟩ := bind_ok h
    obtain ⟨rest, hr, h⟩ := bind_ok h
    cases h
    exact .cons ha (ih hr)

/-- What is read the same way from two lists, element by element, is the same. -/
theorem mapM_eq {α : Type} {R : Value → Value → Prop} {p : Value → Bool} {f g : Value → Except ReadError α}
    {as bs : List α} (h : List.Forall₂ R vs ws) (hv : vs.all p = true) (hw : ws.all p = true)
    (step : ∀ v w a b, R v w → p v = true → p w = true → f v = .ok a → g w = .ok b → a = b)
    (hf : vs.mapM f = .ok as) (hg : ws.mapM g = .ok bs) : as = bs := by
  replace hf := forall₂_of_mapM hf
  replace hg := forall₂_of_mapM hg
  induction h generalizing as bs with
  | nil =>
    cases hf
    cases hg
    rfl
  | cons hr _ ih =>
    rw [List.all_cons, Bool.and_eq_true] at hv hw
    obtain _ | ⟨ha, has⟩ := hf
    obtain _ | ⟨hb, hbs⟩ := hg
    rw [step _ _ _ _ hr hv.1 hw.1 ha hb, ih hv.2 hw.2 has hbs]

/-! ## Triggers -/

/-- Where the text `on` is a key the truth value that a bare `on` is read as is none, and where it is not that truth
value is the only key that counts as it: `1` does too. -/
def hasOneTrigger (es : Entries) : Bool :=
  es.all fun p => !p.1.sameKey (.bool true) || isOn p.1 == (Entries.field? es "on").isNone
where
  /-- Whether a key is the truth value that a bare `on` is read as. -/
  isOn : Value → Bool
    | .bool b => b
    | _ => false

theorem isOn_iff {k : Value} : hasOneTrigger.isOn k = true ↔ k = .bool true := by
  cases k <;> simp [hasOneTrigger.isOn]

theorem triggerOf_eq (es : Entries) :
    triggerOf es = ((Entries.field? es "on").or (Entries.get? es (.bool true))).getD .null := by
  unfold triggerOf
  cases Entries.field? es "on" <;> rfl

/-- Where the trigger is under one key, the member of the name `on` tells it. -/
theorem tells_trigger {ms : List (String × Json)} (hm : Members es ms) (hl : (Value.map es).IsLoaded)
    (ho : hasOneTrigger es = true) :
    Tells ms "on" ((Entries.field? es "on").or (Entries.get? es (.bool true))) := by
  have keys := (Value.haveLoaded_iff.mp hl).1
  have bare : (Value.bool true).sameKey (.bool true) = true := by decide
  have one (p : Value × Value) (hp : p ∈ es) (hk : p.1.sameKey (.bool true) = true) :
      p.1 = .bool true ↔ Entries.field? es "on" = none := by
    have := List.all_eq_true.mp ho p hp
    rw [hk] at this
    rw [← isOn_iff, ← Option.isNone_iff_eq_none, show hasOneTrigger.isOn p.1 = _ by simpa using this]
  have named (p : Value × Value) (hp : p ∈ es) (hn : keyName? p.1 = .ok "on") :
      p.1 = .text "on" ∨ p.1 = .bool true :=
    (Value.keyName?_word (keys p hp).1 (by decide) hn).imp_right (·.1)
  cases ht : Entries.field? es "on" with
  | some v =>
    obtain ⟨as, k, bs, he, hk⟩ := Entries.split_of_get? ht
    obtain rfl := (keys (k, v) (by simp [he])).1.eq_text hk
    refine hm.tells_some hl he (Value.keyName?_text "on") fun p hp hn => ?_
    rcases named p hp hn with he | he
    · rw [he, Entries.sameKey_text, beq_self_eq_true]
    · have := (one p hp (he ▸ bare)).mp he
      rw [ht] at this
      cases this
  | none =>
    have sole (p : Value × Value) (hp : p ∈ es) (hn : keyName? p.1 = .ok "on") : p.1 = .bool true := by
      refine (named p hp hn).resolve_left fun he => ?_
      have other := Entries.get?_eq_none.mp ht p hp
      rw [he, Entries.sameKey_text, beq_self_eq_true] at other
      cases other
    cases hb : Entries.get? es (.bool true) with
    | none =>
      refine hm.tells_none fun p hp hn => ?_
      have other := Entries.get?_eq_none.mp hb p hp
      rw [sole p hp hn, bare] at other
      cases other
    | some v =>
      obtain ⟨as, k, bs, he, hk⟩ := Entries.split_of_get? hb
      obtain rfl : k = .bool true := (one (k, v) (by simp [he]) hk).mpr ht
      exact hm.tells_some hl he rfl fun p hp hn => by rw [sole p hp hn, bare]

theorem Alike.trigger (h : Alike (.map es) (.map fs)) (he : hasOneTrigger es = true) (hf : hasOneTrigger fs = true) :
    Alike (triggerOf es) (triggerOf fs) := by
  obtain ⟨ms, hm, hm'⟩ := h.members
  have loaded {gs : Entries} (hl : (Value.map gs).IsLoaded) : (triggerOf gs).IsLoaded := by
    rw [triggerOf_eq]
    refine isLoaded_getD (fun v hv => ?_) trivial
    rcases Option.or_eq_some_iff.mp hv with hv | ⟨-, hv⟩
    · exact isLoaded_of_get? hl hv
    · exact isLoaded_of_get? hl hv
  refine ⟨loaded h.left, loaded h.right, ?_⟩
  rw [triggerOf_eq, triggerOf_eq]
  exact sameJson_of_tells hm.nodup (tells_trigger hm h.left he) (tells_trigger hm' h.right hf) canonicalJson?_null

/-! ## Versions -/

theorem versionOf_ok {n : Int} (h : versionOf source v = .ok n) : wholeOf v = .number n := by
  unfold versionOf at h
  split at h
  · next hn => exact hn.trans (congrArg Whole.number (Except.ok.inj h))
  · cases h
  · obtain ⟨_, -, h⟩ := bind_ok h
    cases h

/-- What gives a version has JSON of its own, but for bytes, which are written quoted. -/
theorem json_of_whole {n : Int} (hv : v.IsLoaded) (hn : wholeOf v = .number n) (h : canonicalJson? v = .ok j) :
    v = j.toValue ∨ ∃ bs, v = .bytes bs ∧ j = .text (Text.quotedBytes bs) := by
  cases v with
  | bool | float | text =>
    rw [canonicalJson?_scalar rfl, Json.ofValue] at h
    cases h
    rw [Json.toValue]
    exact .inl rfl
  | int n =>
    rw [canonicalJson?_scalar rfl] at h
    rw [Json.ofValue_int h, Json.toValue]
    exact .inl rfl
  | bytes bs =>
    rw [canonicalJson?_scalar rfl] at h
    unfold Json.ofValue Json.document Json.labelLeaf at h
    dsimp only at h
    split at h
    · next s hl =>
      cases h
      rw [Value.label?_ok hl]
      exact .inr ⟨bs, rfl, rfl⟩
    · cases h
  | null | date | time | list | tuple | set | map => cases hn
  | decimal | uuid | tag | other => exact hv.elim

theorem wholeOf_quotedBytes (bs : List UInt8) : wholeOf (.text (Text.quotedBytes bs)) = .none := by
  unfold wholeOf
  simp only [Value.text?, Option.elim, wholeOf.read, Numeral.toInt?_quotedBytes]

/-- Values that are alike give the same version. -/
theorem Alike.version_eq {n m : Int} (h : Alike v w) (hv : versionOf source v = .ok n)
    (hw : versionOf source' w = .ok m) : n = m := by
  have hn := versionOf_ok hv
  have hm := versionOf_ok hw
  obtain ⟨j, hj, hj'⟩ := h.json
  have noText {bs : List UInt8} {k : Int} (hk : wholeOf (Json.toValue (.text (Text.quotedBytes bs))) = .number k) :
      False := by
    rw [Json.toValue, wholeOf_quotedBytes] at hk
    cases hk
  rcases json_of_whole h.left hn hj with rfl | ⟨bs, rfl, rfl⟩
  · rcases json_of_whole h.right hm hj' with rfl | ⟨bs, rfl, rfl⟩
    · exact Whole.number.inj (hn.symm.trans hm)
    · exact (noText hn).elim
  · rcases json_of_whole h.right hm hj' with rfl | ⟨bs', rfl, he⟩
    · exact (noText hm).elim
    · obtain rfl := Text.quotedBytes_inj (JsonOf.text.inj he)
      exact Whole.number.inj (hn.symm.trans hm)

end Workflow

end LoanLedger
