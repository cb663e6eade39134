import LoanLedger.Proofs.Alike

/-!
# The checksum identifies the definition

* `Definition.isClear v` : every text that the document `v` gives is told by a scalar, and every trigger under one key;
* `Definition.agree_of_alike` : clear documents that are alike describe the same definition;
* `checksum_identifies` : so do clear documents with the same checksum, unless their canonical texts collide.
-/

namespace LoanLedger.Workflow

variable {v w : Value} {vs ws : List Value} {es fs : Entries} {source source' checksum checksum' : String}

/-! ## Documents that are clear -/

def elementsIn (es : Entries) (name : String) : List Value :=
  (listOf? (Entries.field es name)).getD []

def Action.isClear : Value → Bool
  | .map es => (Entries.field es "trigger").isScalar
  | _ => true

/-- The trigger of a transition is under one key, and told by a scalar like the state that it leads to. -/
def Transition.isClear : Value → Bool
  | .map es => hasOneTrigger es && (triggerOf es).isScalar && (Entries.field es "to").isScalar &&
      (elementsIn es "actions").all Action.isClear
  | _ => true

def State.isClear : Value → Bool
  | .map es => (Entries.field es "id").isScalar && (Entries.field es "description").isScalar &&
      (elementsIn es "transitions").all Transition.isClear
  | _ => true

def Definition.isClear : Value → Bool
  | .map es => (Entries.field es "name").isScalar && (Entries.field es "initial_state").isScalar &&
      (Entries.field es "description").isScalar && (elementsIn es "states").all State.isClear
  | _ => true

theorem Alike.elementsIn {name : String} (h : Alike (.map es) (.map fs)) (hs : IsWord name) (hon : name ≠ "on")
    (hv : listOf? (Entries.field es name) = some vs) (hw : listOf? (Entries.field fs name) = some ws) :
    List.Forall₂ Alike vs ws :=
  (h.field hs hon).elements hv hw

theorem Alike.text_eq {name a b : String} (h : Alike (.map es) (.map fs)) (hs : IsWord name) (hon : name ≠ "on")
    (hv : (Entries.field es name).isScalar = true) (hw : (Entries.field fs name).isScalar = true)
    (ha : textOf (Entries.field es name) = .ok a) (hb : textOf (Entries.field fs name) = .ok b) : a = b := by
  rw [(h.field hs hon).textOf_eq hv hw, hb] at ha
  exact (Except.ok.inj ha).symm

/-! ## Reading -/

theorem Action.ofValue?_ok {a : Action} (h : Action.ofValue? source v = .ok a) :
    (∃ s, v.text? = some s ∧ a = .ofTrigger (Text.trim s)) ∨
      ∃ es s, v = .map es ∧ textOf (Entries.field es "trigger") = .ok s ∧ a = .ofTrigger s := by
  unfold Action.ofValue? at h
  split at h
  · next s hs =>
    cases h
    exact .inl ⟨s, hs, rfl⟩
  · next es _ =>
    obtain ⟨s, ht, rfl⟩ := map_ok h
    exact .inr ⟨es, s, rfl, ht, rfl⟩
  · cases h

theorem Transition.ofValue?_ok {t : Transition} (h : Transition.ofValue? source v = .ok t) :
    ∃ es vs, v = .map es ∧ listOf? (Entries.field es "actions") = some vs ∧ textOf (triggerOf es) = .ok t.on ∧
      textOf (Entries.field es "to") = .ok t.to ∧ vs.mapM (Action.ofValue? source) = .ok t.actions := by
  cases v with
  | map es =>
    unfold Transition.ofValue? at h
    dsimp only at h
    cases hl : listOf? (Entries.field es "actions") with
    | none => rw [hl] at h; cases h
    | some vs =>
      rw [hl] at h
      obtain ⟨on, hon, h⟩ := bind_ok h
      obtain ⟨target, hto, h⟩ := bind_ok h
      obtain ⟨actions, ha, h⟩ := bind_ok h
      cases h
      exact ⟨es, vs, rfl, hl, hon, hto, ha⟩
  | null | bool | int | float | decimal | text | bytes | uuid | date | time | tag | list | tuple | set | other =>
    cases h

theorem State.ofValue?_ok {s : State} (h : State.ofValue? source v = .ok s) :
    ∃ es vs, v = .map es ∧ listOf? (Entries.field es "transitions") = some vs ∧
      textOf (Entries.field es "id") = .ok s.id ∧ vs.mapM (Transition.ofValue? source) = .ok s.transitions ∧
      textOf (Entries.field es "description") = .ok s.description := by
  cases v with
  | map es =>
    unfold State.ofValue? at h
    dsimp only at h
    cases hl : listOf? (Entries.field es "transitions") with
    | none =>
      rw [hl] at h
      obtain ⟨_, -, h⟩ := bind_ok h
      cases h
    | some vs =>
      rw [hl] at h
      obtain ⟨id, hid, h⟩ := bind_ok h
      obtain ⟨transitions, ht, h⟩ := bind_ok h
      obtain ⟨description, hd, h⟩ := bind_ok h
      cases h
      exact ⟨es, vs, rfl, hl, hid, ht, hd⟩
  | null | bool | int | float | decimal | text | bytes | uuid | date | time | tag | list | tuple | set | other =>
    cases h

theorem Definition.ofValue?_ok {d : Definition} (h : Definition.ofValue? source checksum v = .ok d) :
    ∃ es vs, v = .map es ∧ listOf? (Entries.field es "states") = some vs ∧
      versionOf source ((Entries.field? es "version").getD (.int 0)) = .ok d.version ∧
      textOf (Entries.field es "name") = .ok d.name ∧
      textOf (Entries.field es "initial_state") = .ok d.initialState ∧
      vs.mapM (State.ofValue? source) = .ok d.states ∧ textOf (Entries.field es "description") = .ok d.description ∧
      d.checksum = checksum := by
  cases v with
  | map es =>
    unfold Definition.ofValue? at h
    dsimp only at h
    cases hl : listOf? (Entries.field es "states") with
    | none => rw [hl] at h; cases h
    | some vs =>
      rw [hl] at h
      obtain ⟨version, hv, h⟩ := bind_ok h
      obtain ⟨name, hn, h⟩ := bind_ok h
      obtain ⟨initialState, hi, h⟩ := bind_ok h
      obtain ⟨states, hs, h⟩ := bind_ok h
      obtain ⟨description, hd, h⟩ := bind_ok h
      cases h
      exact ⟨es, vs, rfl, hl, hv, hn, hi, hs, hd, rfl⟩
  | null | bool | int | float | decimal | text | bytes | uuid | date | time | tag | list | tuple | set | other =>
    cases h

/-! ## Reading what is alike -/

theorem eq_text_of_text? {s : String} (hv : v.IsLoaded) (h : v.text? = some s) : v = .text s := by
  cases v with
  | text t => exact congrArg Value.text (Option.some.inj h)
  | tag => exact hv.elim
  | null | bool | int | float | decimal | bytes | uuid | date | time | list | tuple | set | map | other => cases h

theorem Action.eq_of_alike {a b : Action} (h : Alike v w) (hv : Action.isClear v = true) (hw : Action.isClear w = true)
    (ha : Action.ofValue? source v = .ok a) (hb : Action.ofValue? source' w = .ok b) : a = b := by
  rcases Action.ofValue?_ok ha with ⟨s, hs, rfl⟩ | ⟨es, s, rfl, hs, rfl⟩
  · obtain rfl := eq_text_of_text? h.left hs
    rcases Action.ofValue?_ok hb with ⟨r, hr, rfl⟩ | ⟨fs, -, rfl, -⟩
    · obtain rfl := eq_text_of_text? h.right hr
      rw [h.text]
    · exact (not_alike_text_map h).elim
  · rcases Action.ofValue?_ok hb with ⟨r, hr, rfl⟩ | ⟨fs, r, rfl, hr, rfl⟩
    · obtain rfl := eq_text_of_text? h.right hr
      exact (not_alike_text_map h.symm).elim
    · exact congrArg Action.ofTrigger (h.text_eq (by decide) (by decide) hv hw hs hr)

theorem Transition.eq_of_alike {t u : Transition} (h : Alike v w) (hv : Transition.isClear v = true)
    (hw : Transition.isClear w = true) (ht : Transition.ofValue? source v = .ok t)
    (hu : Transition.ofValue? source' w = .ok u) : t = u := by
  obtain ⟨es, vs, rfl, hvs, hon, hto, has⟩ := Transition.ofValue?_ok ht
  obtain ⟨fs, ws, rfl, hws, hon', hto', has'⟩ := Transition.ofValue?_ok hu
  simp only [Transition.isClear, elementsIn, hvs, hws, Option.getD_some, Bool.and_eq_true] at hv hw
  obtain ⟨⟨⟨hone, hons⟩, htos⟩, hacts⟩ := hv
  obtain ⟨⟨⟨hone', hons'⟩, htos'⟩, hacts'⟩ := hw
  have on : t.on = u.on := by
    rw [(h.trigger hone hone').textOf_eq hons hons', hon'] at hon
    exact (Except.ok.inj hon).symm
  have target : t.to = u.to := h.text_eq (by decide) (by decide) htos htos' hto hto'
  have actions : t.actions = u.actions :=
    mapM_eq (h.elementsIn (by decide) (by decide) hvs hws) hacts hacts'
      (fun _ _ _ _ h hv hw ha hb => Action.eq_of_alike h hv hw ha hb) has has'
  cases t
  cases u
  simp_all

theorem State.eq_of_alike {s r : State} (h : Alike v w) (hv : State.isClear v = true) (hw : State.isClear w = true)
    (hs : State.ofValue? source v = .ok s) (hr : State.ofValue? source' w = .ok r) : s = r := by
  obtain ⟨es, vs, rfl, hvs, hid, hts, hd⟩ := State.ofValue?_ok hs
  obtain ⟨fs, ws, rfl, hws, hid', hts', hd'⟩ := State.ofValue?_ok hr
  simp only [State.isClear, elementsIn, hvs, hws, Option.getD_some, Bool.and_eq_true] at hv hw
  obtain ⟨⟨hids, hds⟩, hall⟩ := hv
  obtain ⟨⟨hids', hds'⟩, hall'⟩ := hw
  have id : s.id = r.id := h.text_eq (by decide) (by decide) hids hids' hid hid'
  have description : s.description = r.description := h.text_eq (by decide) (by decide) hds hds' hd hd'
  have transitions : s.transitions = r.transitions :=
    mapM_eq (h.elementsIn (by decide) (by decide) hvs hws) hall hall'
      (fun _ _ _ _ h hv hw ha hb => Transition.eq_of_alike h hv hw ha hb) hts hts'
  cases s
  cases r
  simp_all

theorem canonicalJson?_zero : canonicalJson? (.int 0) = .ok (.int 0) := by
  rw [canonicalJson?_scalar rfl, Json.ofValue_int_of_fits (by decide)]

/-- The definitions tell the same, whatever their checksums. -/
structure Definition.Agree (d c : Definition) : Prop where
  name : d.name = c.name
  version : d.version = c.version
  initialState : d.initialState = c.initialState
  states : d.states = c.states
  description : d.description = c.description

/-- Clear documents that are alike describe the same definition. -/
theorem Definition.agree_of_alike {d c : Definition} (h : Alike v w) (hv : Definition.isClear v = true)
    (hw : Definition.isClear w = true) (hd : Definition.ofValue? source checksum v = .ok d)
    (hc : Definition.ofValue? source' checksum' w = .ok c) : d.Agree c := by
  obtain ⟨es, vs, rfl, hvs, hver, hn, hi, hss, hdesc, -⟩ := Definition.ofValue?_ok hd
  obtain ⟨fs, ws, rfl, hws, hver', hn', hi', hss', hdesc', -⟩ := Definition.ofValue?_ok hc
  simp only [Definition.isClear, elementsIn, hvs, hws, Option.getD_some, Bool.and_eq_true] at hv hw
  obtain ⟨⟨⟨hns, his⟩, hds⟩, hall⟩ := hv
  obtain ⟨⟨⟨hns', his'⟩, hds'⟩, hall'⟩ := hw
  exact {
    name := h.text_eq (by decide) (by decide) hns hns' hn hn'
    version := (h.getD_field? (d := .int 0) (by decide) (by decide) trivial canonicalJson?_zero).version_eq hver hver'
    initialState := h.text_eq (by decide) (by decide) his his' hi hi'
    states := mapM_eq (h.elementsIn (by decide) (by decide) hvs hws) hall hall'
      (fun _ _ _ _ h hv hw ha hb => State.eq_of_alike h hv hw ha hb) hss hss'
    description := h.text_eq (by decide) (by decide) hds hds' hdesc hdesc' }

/-- Clear documents with the same checksum describe the same definition, unless their canonical texts collide. -/
theorem checksum_identifies {d c : Definition} {sum : String} (hv : v.IsLoaded) (hw : w.IsLoaded)
    (hvc : Definition.isClear v = true) (hwc : Definition.isClear w = true)
    (hd : Definition.ofValue? source checksum v = .ok d) (hc : Definition.ofValue? source' checksum' w = .ok c)
    (hs : checksum? v = .ok sum) (hs' : checksum? w = .ok sum) :
    d.Agree c ∨ ∃ t u, canonicalText? v = .ok t ∧ canonicalText? w = .ok u ∧ t ≠ u ∧
      digestOf t = digestOf u := by
  obtain ⟨t, ht, hdigest⟩ := map_ok hs
  obtain ⟨u, hu, hdigest'⟩ := map_ok hs'
  by_cases htu : t = u
  · have alike : Alike v w := ⟨hv, hw, sameJson_of_canonicalText? hv hw ht (htu ▸ hu)⟩
    exact .inl (Definition.agree_of_alike alike hvc hwc hd hc)
  · exact .inr ⟨t, u, ht, hu, htu, hdigest.trans hdigest'.symm⟩

/-! ## Documents of one transition -/

/-- A document of one state, with one transition of some entries. -/
def lone (entries : Entries) : Value :=
  .map [(.text "name", .text "lone"), (.text "version", .int 1), (.text "initial_state", .text "open"),
    (.text "states", .list [.map [(.text "id", .text "open"), (.text "transitions", .list [.map entries])]])]

theorem isLoaded_lone (h : (Value.map es).IsLoaded) : (lone es).IsLoaded := by
  simp [lone, Value.IsLoaded, Value.AreLoaded, Value.HaveLoaded, Value.IsLoadedKey, Entries.sameKey_text]
  exact h

/-- Documents with the same canonical text have the same checksum. -/
theorem checksum?_of_texts (h : (canonicalText? v).toOption = (canonicalText? w).toOption)
    (hs : (canonicalText? v).toOption.isSome = true) : ∃ sum, checksum? v = .ok sum ∧ checksum? w = .ok sum := by
  cases ht : canonicalText? v with
  | error x => rw [ht] at hs; cases hs
  | ok t =>
    cases hu : canonicalText? w with
    | error x => rw [ht, hu] at h; cases h
    | ok u =>
      rw [ht, hu] at h
      obtain rfl : t = u := Option.some.inj h
      refine ⟨digestOf t, ?_, ?_⟩
      · rw [checksum?, ht]; rfl
      · rw [checksum?, hu]; rfl

/-- The definition that a document of one transition describes. -/
def loneDefinition? (es : Entries) : Option Definition :=
  (Definition.ofValue? "lone" "" (lone es)).toOption

theorem ofValue?_of_loneDefinition? (es : Entries) {d : Definition} (h : loneDefinition? es = some d) :
    Definition.ofValue? "lone" "" (lone es) = .ok d :=
  ok_of_toOption h

/-- The transition that leads back from the one state. -/
def loneOf (on target : String) : Definition :=
  ⟨"lone", 1, "open", [⟨"open", [⟨on, target, []⟩], ""⟩], "", ""⟩

/-- A bare key tells the same as a quoted one. -/
theorem checksum_identifies_lone :
    let v := lone [(.bool true, .text "go"), (.text "to", .text "open")]
    let w := lone [(.text "on", .text "go"), (.text "to", .text "open")]
    v.IsLoaded ∧ w.IsLoaded ∧ Definition.isClear v = true ∧ Definition.isClear w = true ∧
      ∃ sum, checksum? v = .ok sum ∧ checksum? w = .ok sum ∧
        ∃ d c, Definition.ofValue? "lone" "" v = .ok d ∧ Definition.ofValue? "lone" "" w = .ok c ∧
          (d.Agree c ∨ ∃ t u, canonicalText? v = .ok t ∧ canonicalText? w = .ok u ∧ t ≠ u ∧
            digestOf t = digestOf u) := by
  intro v w
  have hv : v.IsLoaded :=
    isLoaded_lone ⟨⟨trivial, by decide⟩, trivial, ⟨trivial, by decide⟩, trivial, trivial⟩
  have hw : w.IsLoaded :=
    isLoaded_lone ⟨⟨trivial, by decide⟩, trivial, ⟨trivial, by decide⟩, trivial, trivial⟩
  have hvc : Definition.isClear v = true := by decide
  have hwc : Definition.isClear w = true := by decide
  obtain ⟨sum, hs, hs'⟩ := checksum?_of_texts (v := v) (w := w) (by decide +kernel) (by decide +kernel)
  have hd := ofValue?_of_loneDefinition? [(.bool true, .text "go"), (.text "to", .text "open")]
    (d := loneOf "go" "open") (by decide +kernel)
  have hc := ofValue?_of_loneDefinition? [(.text "on", .text "go"), (.text "to", .text "open")]
    (d := loneOf "go" "open") (by decide +kernel)
  exact ⟨hv, hw, hvc, hwc, sum, hs, hs', _, _, hd, hc, checksum_identifies hv hw hvc hwc hd hc hs hs'⟩

/-- Loaded documents with the same checksum describe definitions with other states. -/
def Shared (v w : Value) : Prop :=
  v.IsLoaded ∧ w.IsLoaded ∧ (∃ sum, checksum? v = .ok sum ∧ checksum? w = .ok sum) ∧
    ∃ d c, Definition.ofValue? "lone" "" v = .ok d ∧ Definition.ofValue? "lone" "" w = .ok c ∧
    d.states ≠ c.states

theorem shared_of_lone {d c : Definition} (hes : (Value.map es).IsLoaded) (hfs : (Value.map fs).IsLoaded)
    (ht : (canonicalText? (lone es)).toOption = (canonicalText? (lone fs)).toOption)
    (hs : (canonicalText? (lone es)).toOption.isSome = true) (hd : loneDefinition? es = some d)
    (hc : loneDefinition? fs = some c) (hne : d.states ≠ c.states) : Shared (lone es) (lone fs) :=
  ⟨isLoaded_lone hes, isLoaded_lone hfs, checksum?_of_texts ht hs, d, c, ofValue?_of_loneDefinition? es hd,
    ofValue?_of_loneDefinition? fs hc, hne⟩

/-- No condition can be left out: a trigger under the text and under the bare key, under a number, and the text of a map
are read in one way and digested in another. -/
theorem checksum_shared :
    Shared (lone [(.text "on", .text "go"), (.bool true, .text "stay"), (.text "to", .text "open")])
      (lone [(.bool true, .text "stay"), (.text "to", .text "open")]) ∧
    Shared (lone [(.int 1, .text "go"), (.text "to", .text "open")])
      (lone [(.text "1", .text "go"), (.text "to", .text "open")]) ∧
    Shared (lone [(.bool true, .text "go"), (.text "to", .map [(.int 1, .text "a")])])
      (lone [(.bool true, .text "go"), (.text "to", .map [(.text "1", .text "a")])]) := by
  have two {k l v w : Value} (hk : k.IsLoadedKey) (hl : l.IsLoadedKey) (hv : v.IsLoaded) (hw : w.IsLoaded)
      (hkl : k.sameKey l = false) : (Value.map [(k, v), (l, w)]).IsLoaded :=
    ⟨⟨hk, by simpa using hkl⟩, hv, ⟨hl, by simp⟩, hw, trivial⟩
  refine ⟨?_, ?_, ?_⟩
  · exact shared_of_lone (d := loneOf "go" "open") (c := loneOf "stay" "open")
      ⟨⟨trivial, by decide⟩, trivial, ⟨trivial, by decide⟩, trivial, ⟨trivial, by decide⟩,
        trivial, trivial⟩
      (two trivial trivial trivial trivial (by decide)) (by decide +kernel) (by decide +kernel) (by decide +kernel)
      (by decide +kernel) (by decide)
  · exact shared_of_lone (d := loneOf "go" "open") (c := loneOf "" "open")
      (two trivial trivial trivial trivial (by decide)) (two trivial trivial trivial trivial (by decide))
      (by decide +kernel) (by decide +kernel) (by decide +kernel) (by decide +kernel) (by decide)
  · exact shared_of_lone (d := loneOf "go" "\x7b1: 'a'\x7d") (c := loneOf "go" "\x7b'1': 'a'\x7d")
      (two trivial trivial trivial ⟨⟨trivial, by decide⟩, trivial, trivial⟩ (by decide))
      (two trivial trivial trivial ⟨⟨trivial, by decide⟩, trivial, trivial⟩ (by decide))
      (by decide +kernel) (by decide +kernel) (by decide +kernel) (by decide +kernel) (by decide)

end LoanLedger.Workflow
