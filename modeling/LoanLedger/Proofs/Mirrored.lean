import LoanLedger.Proofs.Identity

/-!
# Definitions mirror their documents

* `Definition.Fits v` : the document `v` and its parts have the shapes that a definition is read from;
* `Definition.HasTexts v` : every field of `v` and its parts that is read as a text has one;
* `Definition.Mirrors checksum v d` : the definition `d` has what `v` tells, with a state, a transition and an action
  for each part of `v` in its order;
* `Definition.parts v` : the document `v` and its parts in their order; `firstComplaint? parts` : what is wrong with the
  first of them that has a wrong shape;
* `Answers source r parts` : reading these parts gives something, or tells this complaint alone;
* `reading_mirrors` : documents are read so, those that fit and no others.
-/

namespace LoanLedger.Workflow

variable {v : Value} {vs : List Value} {es : Entries} {source checksum name s m : String} {α β : Type}

/-! ## Fields -/

/-- The text that a field tells, without blanks at its ends; null tells an empty one. -/
def Tells (v : Value) (s : String) : Prop :=
  v = .null ∧ s = "" ∨ v ≠ .null ∧ ∃ t, v.label? = .ok t ∧ s = Text.trim t

def HasText (v : Value) : Prop := ∃ s, Tells v s

theorem textOf_eq_ok : textOf v = .ok s ↔ Tells v s := by
  unfold textOf Tells
  by_cases hv : v = .null
  · subst hv
    simp only [true_and, ne_eq, not_true_eq_false, false_and, or_false]
    exact ⟨fun h => (Except.ok.inj h).symm, fun h => h ▸ rfl⟩
  · rw [trimmed?_of_ne_null hv]
    simp only [hv, false_and, ne_eq, not_false_eq_true, true_and, false_or]
    cases v.label? with
    | error e => simp [Except.map, Except.mapError]
    | ok t => simpa [Except.map, Except.mapError] using eq_comm

theorem HasText.textOf (h : HasText v) : ∃ s, textOf v = .ok s :=
  h.imp fun _ => textOf_eq_ok.mpr

/-- The elements of a list; what counts as absent has none. -/
def IsListOf (v : Value) (vs : List Value) : Prop :=
  v.isTruthy = false ∧ vs = [] ∨ v = .list vs

theorem listOf?_eq_some : listOf? v = some vs ↔ IsListOf v vs := by
  unfold listOf? IsListOf
  cases ht : v.isTruthy with
  | false =>
    have absent : v = .list vs → vs = [] := by
      rintro rfl
      simpa [Value.isTruthy] using ht
    simp only [Bool.not_false, if_true, Option.some.injEq, true_and]
    exact ⟨fun h => .inl h.symm, fun h => (h.elim id absent).symm⟩
  | true => cases v <;> simp

theorem IsListOf.eq {ws : List Value} (h : IsListOf v vs) (hw : listOf? v = some ws) : vs = ws :=
  Option.some.inj ((listOf?_eq_some.mpr h).symm.trans hw)

/-! ## Shapes -/

/-- A mapping with a list of values in a field that `P` holds of. -/
def FitsMap (name : String) (P : Value → Prop) (v : Value) : Prop :=
  ∃ es vs, v = .map es ∧ IsListOf (Entries.field es name) vs ∧ ∀ w ∈ vs, P w

def Action.Fits (v : Value) : Prop :=
  (∃ s, v.text? = some s) ∨ ∃ es, v = .map es

def Transition.Fits : Value → Prop := FitsMap "actions" Action.Fits

def State.Fits : Value → Prop := FitsMap "transitions" Transition.Fits

def Definition.Fits : Value → Prop := FitsMap "states" State.Fits

/-- The version of a document converts to a whole number. -/
def Definition.HasVersion (es : Entries) (n : Int) : Prop :=
  wholeOf ((Entries.field? es "version").getD (.int 0)) = .number n

/-! ## Texts -/

def Action.HasTexts (v : Value) : Prop :=
  ∀ es, v = .map es → HasText (Entries.field es "trigger")

def Transition.HasTexts (v : Value) : Prop :=
  ∀ es, v = .map es → HasText (triggerOf es) ∧ HasText (Entries.field es "to") ∧
    ∀ vs, IsListOf (Entries.field es "actions") vs → ∀ w ∈ vs, Action.HasTexts w

def State.HasTexts (v : Value) : Prop :=
  ∀ es, v = .map es → HasText (Entries.field es "id") ∧ HasText (Entries.field es "description") ∧
    ∀ vs, IsListOf (Entries.field es "transitions") vs → ∀ w ∈ vs, Transition.HasTexts w

/-- Every field of a document and its parts that is read as a text has one. -/
def Definition.HasTexts (v : Value) : Prop :=
  ∀ es, v = .map es → HasText (Entries.field es "name") ∧ HasText (Entries.field es "initial_state") ∧
    HasText (Entries.field es "description") ∧
    ∀ vs, IsListOf (Entries.field es "states") vs → ∀ w ∈ vs, State.HasTexts w

/-! ## What is read -/

/-- The kind is known and has the trigger for its word, or no known one has. -/
def ActionKind.IsOf (trigger : String) (k : ActionKind) : Prop :=
  k ∈ known ∧ k.word = trigger ∨ k = .unrecognized ∧ ∀ k' ∈ known, k'.word ≠ trigger

theorem ActionKind.isOf_ofTrigger (trigger : String) : IsOf trigger (ofTrigger trigger) := by
  unfold IsOf ofTrigger
  cases h : known.find? (·.word = trigger) with
  | none => exact .inr ⟨rfl, by simpa using h⟩
  | some k => exact .inl ⟨List.mem_of_find?_eq_some h, by simpa using List.find?_some h⟩

/-- The action has the trigger that a value tells, and its kind. -/
def Action.Mirrors (v : Value) (a : Action) : Prop :=
  ((∃ s, v.text? = some s ∧ a.trigger = Text.trim s) ∨
    ∃ es, v = .map es ∧ Tells (Entries.field es "trigger") a.trigger) ∧ a.kind.IsOf a.trigger

/-- The transition has the texts that a value tells, and an action for each one in it. -/
def Transition.Mirrors (v : Value) (t : Transition) : Prop :=
  ∃ es vs, v = .map es ∧ Tells (triggerOf es) t.on ∧ Tells (Entries.field es "to") t.to ∧
    IsListOf (Entries.field es "actions") vs ∧ List.Forall₂ Action.Mirrors vs t.actions

/-- The state has the texts that a value tells, and a transition for each one in it. -/
def State.Mirrors (v : Value) (s : State) : Prop :=
  ∃ es vs, v = .map es ∧ Tells (Entries.field es "id") s.id ∧
    Tells (Entries.field es "description") s.description ∧
    IsListOf (Entries.field es "transitions") vs ∧ List.Forall₂ Transition.Mirrors vs s.transitions

/-- The definition has the texts and the version that a document tells, and a state for each one in it. -/
def Definition.Mirrors (checksum : String) (v : Value) (d : Definition) : Prop :=
  ∃ es vs, v = .map es ∧ Tells (Entries.field es "name") d.name ∧ Definition.HasVersion es d.version ∧
    Tells (Entries.field es "initial_state") d.initialState ∧ Tells (Entries.field es "description") d.description ∧
    IsListOf (Entries.field es "states") vs ∧ List.Forall₂ State.Mirrors vs d.states ∧ d.checksum = checksum

theorem Action.mirrors {a : Action} (h : Action.ofValue? source v = .ok a) : Action.Mirrors v a := by
  rcases Action.ofValue?_ok h with ⟨s, hs, rfl⟩ | ⟨es, s, hv, ht, rfl⟩
  · exact ⟨.inl ⟨s, hs, rfl⟩, ActionKind.isOf_ofTrigger _⟩
  · exact ⟨.inr ⟨es, hv, textOf_eq_ok.mp ht⟩, ActionKind.isOf_ofTrigger s⟩

theorem Transition.mirrors {t : Transition} (h : Transition.ofValue? source v = .ok t) : Transition.Mirrors v t := by
  obtain ⟨es, vs, hv, hl, hon, hto, ha⟩ := Transition.ofValue?_ok h
  exact ⟨es, vs, hv, textOf_eq_ok.mp hon, textOf_eq_ok.mp hto, listOf?_eq_some.mp hl,
    (forall₂_of_mapM ha).imp fun _ _ => Action.mirrors⟩

theorem State.mirrors {s : State} (h : State.ofValue? source v = .ok s) : State.Mirrors v s := by
  obtain ⟨es, vs, hv, hl, hid, ht, hd⟩ := State.ofValue?_ok h
  exact ⟨es, vs, hv, textOf_eq_ok.mp hid, textOf_eq_ok.mp hd, listOf?_eq_some.mp hl,
    (forall₂_of_mapM ht).imp fun _ _ => Transition.mirrors⟩

theorem Definition.mirrors {d : Definition} (h : Definition.ofValue? source checksum v = .ok d) :
    Definition.Mirrors checksum v d := by
  obtain ⟨es, vs, hv, hl, hn, hname, hi, hs, hd, hc⟩ := Definition.ofValue?_ok h
  exact ⟨es, vs, hv, textOf_eq_ok.mp hname, versionOf_ok hn, textOf_eq_ok.mp hi, textOf_eq_ok.mp hd,
    listOf?_eq_some.mp hl, (forall₂_of_mapM hs).imp fun _ _ => State.mirrors, hc⟩

/-! ## Complaints -/

inductive Part where
  | document (v : Value)
  | state (v : Value)
  | transition (v : Value)
  | action (v : Value)

def mapComplaint? (noMap : Value → String) (name : String) (noList : Entries → String) : Value → Option String
  | .map es => if (listOf? (Entries.field es name)).isNone then some (noList es) else none
  | v => some (noMap v)

/-- What is wrong with the shape of a part, apart from the parts in it. -/
def Part.complaint? : Part → Option String
  | document v => mapComplaint? (fun _ => "document must be a mapping") "states" (fun _ => "states must be a list") v
  | state v => mapComplaint? (fun v => "state must be a mapping, got " ++ v.sort) "transitions"
      (fun es => "state " ++ Text.quoted ((textOf (Entries.field es "id")).toOption.getD "") ++
        ": transitions must be a list") v
  | transition v => mapComplaint? (fun v => "transition must be a mapping, got " ++ v.sort) "actions"
      (fun _ => "transition actions must be a list") v
  | action (.map _) => none
  | action v => if v.text?.isNone then some ("action must be a string or mapping, got " ++ v.sort) else none

def partsIn (part : Value → Part) (name : String) (parts : Value → List Part) (v : Value) : List Part :=
  part v :: match v with
    | .map es => (elementsIn es name).flatMap parts
    | _ => []

def Action.parts (v : Value) : List Part := [.action v]

def Transition.parts : Value → List Part := partsIn .transition "actions" Action.parts

def State.parts : Value → List Part := partsIn .state "transitions" Transition.parts

def Definition.parts : Value → List Part := partsIn .document "states" State.parts

def firstComplaint? (parts : List Part) : Option String := parts.findSome? Part.complaint?

theorem firstComplaint?_eq_none {parts : List Part} :
    firstComplaint? parts = none ↔ ∀ p ∈ parts, p.complaint? = none :=
  List.findSome?_eq_none_iff

theorem mapComplaint?_eq_none {noMap : Value → String} {noList : Entries → String} :
    mapComplaint? noMap name noList v = none ↔ ∃ es vs, v = .map es ∧ IsListOf (Entries.field es name) vs := by
  cases v with
  | map es => simp [mapComplaint?, ← listOf?_eq_some, ← Option.ne_none_iff_exists']
  | null | bool | int | float | decimal | text | bytes | uuid | date | time | tag | list | tuple | set | other =>
    simp [mapComplaint?]

/-- A mapping fits where neither it nor a part in it has a wrong shape. -/
theorem fitsMap_iff {P : Value → Prop} {part : Value → Part} {parts : Value → List Part}
    {noMap : Value → String} {noList : Entries → String}
    (hp : ∀ v, (part v).complaint? = mapComplaint? noMap name noList v)
    (hP : ∀ w, P w ↔ firstComplaint? (parts w) = none) :
    FitsMap name P v ↔ firstComplaint? (partsIn part name parts v) = none := by
  have own : (∃ es vs, v = .map es ∧ IsListOf (Entries.field es name) vs) ↔ (part v).complaint? = none := by
    rw [hp, mapComplaint?_eq_none]
  unfold partsIn
  rw [firstComplaint?_eq_none, List.forall_mem_cons, ← own]
  constructor
  · rintro ⟨es, vs, rfl, hl, hvs⟩
    refine ⟨⟨es, vs, rfl, hl⟩, ?_⟩
    intro p hm
    simp only [elementsIn, listOf?_eq_some.mpr hl, Option.getD_some, List.mem_flatMap] at hm
    obtain ⟨w, hw, hm⟩ := hm
    exact firstComplaint?_eq_none.mp ((hP w).mp (hvs w hw)) p hm
  · rintro ⟨⟨es, vs, rfl, hl⟩, hvs⟩
    refine ⟨es, vs, rfl, hl, fun w hw => (hP w).mpr (firstComplaint?_eq_none.mpr ?_)⟩
    intro p hm
    apply hvs
    simp only [elementsIn, listOf?_eq_some.mpr hl, Option.getD_some, List.mem_flatMap]
    exact ⟨w, hw, hm⟩

theorem Action.fits_iff (v : Value) : Action.Fits v ↔ firstComplaint? (Action.parts v) = none := by
  rw [firstComplaint?_eq_none, Action.parts, List.forall_mem_singleton]
  cases v <;> simp [Action.Fits, Part.complaint?, Value.text?]

theorem Transition.fits_iff (v : Value) : Transition.Fits v ↔ firstComplaint? (Transition.parts v) = none :=
  fitsMap_iff (fun _ => rfl) Action.fits_iff

theorem State.fits_iff (v : Value) : State.Fits v ↔ firstComplaint? (State.parts v) = none :=
  fitsMap_iff (fun _ => rfl) Transition.fits_iff

theorem Definition.fits_iff (v : Value) : Definition.Fits v ↔ firstComplaint? (Definition.parts v) = none :=
  fitsMap_iff (fun _ => rfl) State.fits_iff

/-! ## Reading -/

/-- Something is read where no part has a wrong shape; otherwise the first complaint alone is told. -/
def Answers (source : String) (r : Except ReadError α) (parts : List Part) : Prop :=
  (firstComplaint? parts = none ∧ ∃ a, r = .ok a) ∨
    ∃ m, firstComplaint? parts = some m ∧ r = .error (invalid source m)

namespace Answers

variable {r : Except ReadError α} {p : Part} {ps : List Part}

theorem refused (hp : p.complaint? = some m) :
    Answers source (.error (invalid source m) : Except ReadError α) (p :: ps) :=
  .inr ⟨m, by simp [firstComplaint?, hp], rfl⟩

theorem cons (hp : p.complaint? = none) (h : Answers source r ps) : Answers source r (p :: ps) := by
  have same : firstComplaint? (p :: ps) = firstComplaint? ps := by simp [firstComplaint?, hp]
  unfold Answers
  rw [same]
  exact h

theorem bind {f : α → Except ReadError β} (h : Answers source r ps) (hf : ∀ a, ∃ b, f a = .ok b) :
    Answers source (r >>= f) ps := by
  rcases h with ⟨hn, a, rfl⟩ | ⟨m, hm, rfl⟩
  · exact .inl ⟨hn, hf a⟩
  · exact .inr ⟨m, hm, rfl⟩

/-- Parts are read one after the other, up to the first that is wrong. -/
theorem mapM {f : Value → Except ReadError α} {parts : Value → List Part} :
    ∀ {vs : List Value}, (∀ v ∈ vs, Answers source (f v) (parts v)) →
      Answers source (vs.mapM f) (vs.flatMap parts) := by
  intro vs
  induction vs with
  | nil =>
    intro _
    exact .inl ⟨rfl, [], rfl⟩
  | cons v vs ih =>
    intro h
    obtain ⟨hv, hvs⟩ := List.forall_mem_cons.mp h
    have split : firstComplaint? ((v :: vs).flatMap parts) =
        (firstComplaint? (parts v)).or (firstComplaint? (vs.flatMap parts)) := by
      simp [firstComplaint?, List.findSome?_append]
    rw [List.mapM_cons]
    unfold Answers
    rw [split]
    rcases hv with ⟨hn, a, ha⟩ | ⟨m, hm, he⟩
    · rw [hn, ha]
      exact (ih hvs).bind fun as => ⟨a :: as, rfl⟩
    · rw [hm, he]
      exact .inr ⟨m, rfl, rfl⟩

variable {f : Value → Except ReadError α} {part : Value → Part} {parts : Value → List Part}
    {noMap : Value → String}
  {noList : Entries → String}

theorem unlisted (hp : ∀ v, (part v).complaint? = mapComplaint? noMap name noList v)
    (hl : listOf? (Entries.field es name) = none) :
    Answers source (.error (invalid source (noList es)) : Except ReadError β) (partsIn part name parts (.map es)) :=
  .refused (by simp [hp, mapComplaint?, hl])

/-- A mapping with a list is read by reading the elements. -/
theorem within {g : List α → Except ReadError β}
    (hp : ∀ v, (part v).complaint? = mapComplaint? noMap name noList v)
    (hl : listOf? (Entries.field es name) = some vs) (h : ∀ w ∈ vs, Answers source (f w) (parts w))
    (hg : ∀ as, ∃ b, g as = .ok b) : Answers source (vs.mapM f >>= g) (partsIn part name parts (.map es)) := by
  have whole : (part (.map es)).complaint? = none := by simp [hp, mapComplaint?, hl]
  have elements : Answers source (vs.mapM f) ((elementsIn es name).flatMap parts) := by
    rw [elementsIn, hl]
    exact .mapM h
  exact .cons whole (elements.bind hg)

end Answers

theorem Action.answers (h : Action.HasTexts v) : Answers source (Action.ofValue? source v) (Action.parts v) := by
  cases v with
  | map es =>
    obtain ⟨s, hs⟩ := (h es rfl).textOf
    exact .inl ⟨rfl, .ofTrigger s, congrArg (Except.map Action.ofTrigger) hs⟩
  | text | tag => exact .inl ⟨rfl, _, rfl⟩
  | null | bool | int | float | decimal | bytes | uuid | date | time | list | tuple | set | other => exact .refused rfl

theorem Transition.answers (h : Transition.HasTexts v) :
    Answers source (Transition.ofValue? source v) (Transition.parts v) := by
  cases v with
  | map es =>
    obtain ⟨hon, hto, hvs⟩ := h es rfl
    obtain ⟨on, hon⟩ := hon.textOf
    obtain ⟨target, hto⟩ := hto.textOf
    unfold Transition.ofValue?
    dsimp only
    cases hl : listOf? (Entries.field es "actions") with
    | none => apply Answers.unlisted (fun _ => rfl) hl
    | some vs =>
      rw [hon, hto]
      apply Answers.within (fun _ => rfl) hl
      · intro w hw
        exact Action.answers (hvs vs (listOf?_eq_some.mp hl) w hw)
      · intro actions
        exact ⟨⟨on, target, actions⟩, rfl⟩
  | null | bool | int | float | decimal | text | bytes | uuid | date | time | tag | list | tuple | set | other =>
    exact .refused rfl

theorem State.answers (h : State.HasTexts v) : Answers source (State.ofValue? source v) (State.parts v) := by
  cases v with
  | map es =>
    obtain ⟨hid, hd, hvs⟩ := h es rfl
    obtain ⟨id, hid⟩ := hid.textOf
    obtain ⟨description, hd⟩ := hd.textOf
    unfold State.ofValue?
    dsimp only
    cases hl : listOf? (Entries.field es "transitions") with
    | none =>
      -- the complaint tells the id, which is read first
      rw [hid]
      have told : (textOf (Entries.field es "id")).toOption.getD "" = id := by rw [hid]; rfl
      rw [← told]
      apply Answers.unlisted (fun _ => rfl) hl
    | some vs =>
      rw [hid, hd]
      apply Answers.within (fun _ => rfl) hl
      · intro w hw
        exact Transition.answers (hvs vs (listOf?_eq_some.mp hl) w hw)
      · intro transitions
        exact ⟨⟨id, transitions, description⟩, rfl⟩
  | null | bool | int | float | decimal | text | bytes | uuid | date | time | tag | list | tuple | set | other =>
    exact .refused rfl

/-- A document is read so where its version converts, if it has one. -/
theorem Definition.answers (h : Definition.HasTexts v)
    (hv : ∀ es, v = .map es → ∃ n, Definition.HasVersion es n) :
    Answers source (Definition.ofValue? source checksum v) (Definition.parts v) := by
  cases v with
  | map es =>
    obtain ⟨hname, hi, hd, hvs⟩ := h es rfl
    obtain ⟨name, hname⟩ := hname.textOf
    obtain ⟨initialState, hi⟩ := hi.textOf
    obtain ⟨description, hd⟩ := hd.textOf
    obtain ⟨version, hn⟩ := hv es rfl
    have hversion : versionOf source ((Entries.field? es "version").getD (.int 0)) = .ok version := by
      rw [versionOf, hn]
    unfold Definition.ofValue?
    dsimp only
    cases hl : listOf? (Entries.field es "states") with
    | none => apply Answers.unlisted (fun _ => rfl) hl
    | some vs =>
      rw [hversion, hname, hi, hd]
      apply Answers.within (fun _ => rfl) hl
      · intro w hw
        exact State.answers (hvs vs (listOf?_eq_some.mp hl) w hw)
      · intro states
        exact ⟨⟨name, version, initialState, states, description, checksum⟩, rfl⟩
  | null | bool | int | float | decimal | text | bytes | uuid | date | time | tag | list | tuple | set | other =>
    exact .refused rfl

/-- Reading mirrors the document. Where every text field has a text, a definition is read just from a document that fits
and whose version converts, and it has all that the document tells in its order. If instead some shape is wrong and the
version converts, the first complaint alone is told. -/
theorem reading_mirrors (source checksum : String) (v : Value) (h : Definition.HasTexts v) :
    ((∃ d, Definition.ofValue? source checksum v = .ok d) ↔
      Definition.Fits v ∧ ∃ es n, v = .map es ∧ Definition.HasVersion es n) ∧
    (∀ d, Definition.ofValue? source checksum v = .ok d → Definition.Mirrors checksum v d) ∧
    (¬ Definition.Fits v → (∀ es, v = .map es → ∃ n, Definition.HasVersion es n) →
      ∃ m, firstComplaint? (Definition.parts v) = some m ∧
        Definition.ofValue? source checksum v = .error (.failure (.definitionInvalid source [m]))) := by
  refine ⟨⟨?_, ?_⟩, fun d => Definition.mirrors, ?_⟩
  · rintro ⟨d, hd⟩
    obtain ⟨es, _, rfl, _, hn, _⟩ := Definition.mirrors hd
    have hv : ∀ fs, Value.map es = .map fs → ∃ n, Definition.HasVersion fs n := by
      rintro _ ⟨⟩
      exact ⟨d.version, hn⟩
    rcases Definition.answers h hv with ⟨hf, -⟩ | ⟨m, -, he⟩
    · exact ⟨(Definition.fits_iff _).mpr hf, es, d.version, rfl, hn⟩
    · rw [he] at hd
      cases hd
  · rintro ⟨hf, es, n, rfl, hn⟩
    have hv : ∀ fs, Value.map es = .map fs → ∃ n, Definition.HasVersion fs n := by
      rintro _ ⟨⟩
      exact ⟨n, hn⟩
    rcases Definition.answers h hv with ⟨-, hd⟩ | ⟨m, hm, -⟩
    · exact hd
    · rw [(Definition.fits_iff _).mp hf] at hm
      cases hm
  · intro hf hv
    rcases Definition.answers h hv with ⟨hn, -⟩ | hm
    · exact (hf ((Definition.fits_iff v).mpr hn)).elim
    · exact hm

/-- A document of two states, with one transition of some actions. -/
def drawn (actions : List Value) : Value :=
  .map [(.text "name", .text " drawn "), (.text "version", .text "2"), (.text "initial_state", .text "open"),
    (.text "states", .list [
      .map [(.text "id", .text "open"), (.text "transitions", .list [
        .map [(.bool true, .text "go"), (.text "to", .text "paid"), (.text "actions", .list actions)]])],
      .map [(.text "id", .text "paid"), (.text "transitions", .null)]])]

theorem hasText_text (s : String) : HasText (.text s) :=
  ⟨Text.trim s, .inr ⟨nofun, s, Value.label?_text s, rfl⟩⟩

theorem hasText_null : HasText .null :=
  ⟨"", .inl ⟨rfl, rfl⟩⟩

theorem hasTexts_drawn (h : ∀ v ∈ vs, Action.HasTexts v) : Definition.HasTexts (drawn vs) := by
  rintro _ ⟨⟩
  refine ⟨hasText_text _, hasText_text _, hasText_null, fun ss hs => ?_⟩
  obtain rfl := hs.eq rfl
  rw [List.forall_mem_cons, List.forall_mem_singleton]
  constructor
  · rintro _ ⟨⟩
    refine ⟨hasText_text _, hasText_null, fun ts ht => ?_⟩
    obtain rfl := ht.eq rfl
    rw [List.forall_mem_singleton]
    rintro _ ⟨⟩
    refine ⟨hasText_text _, hasText_text _, fun as ha => ?_⟩
    rcases ha with ⟨-, rfl⟩ | ha
    · exact List.forall_mem_nil _
    · exact Value.list.inj ha ▸ h
  · rintro _ ⟨⟩
    refine ⟨hasText_text _, hasText_null, fun ts ht => ?_⟩
    obtain rfl := ht.eq rfl
    exact List.forall_mem_nil _

theorem drawn_version (h : drawn vs = .map es) : Definition.HasVersion es 2 := by
  cases h
  exact (rfl : wholeOf (.text "2") = .number 2)

/-- Texts and mappings are read, the first element of another sort is told. -/
theorem reading_mirrors_drawn :
    let v := drawn [.text " DISBURSEMENT_1 ", .map [(.text "trigger", .text "MISSING")]]
    let w := drawn [.text "DISBURSEMENT_2", .int 5, .null]
    Definition.HasTexts v ∧ Definition.HasTexts w ∧ Definition.Fits v ∧ ¬ Definition.Fits w ∧
      (∃ d, Definition.ofValue? "drawn" "" v = .ok d ∧ Definition.Mirrors "" v d) ∧
      Definition.ofValue? "drawn" "" w =
        .error (.failure (.definitionInvalid "drawn" ["action must be a string or mapping, got int"])) := by
  intro v w
  have hv : Definition.HasTexts v := by
    apply hasTexts_drawn
    rw [List.forall_mem_cons, List.forall_mem_singleton]
    refine ⟨nofun, ?_⟩
    rintro _ ⟨⟩
    exact hasText_text _
  have hw : Definition.HasTexts w := by
    apply hasTexts_drawn
    rw [List.forall_mem_cons, List.forall_mem_cons, List.forall_mem_singleton]
    exact ⟨nofun, nofun, nofun⟩
  have fits : Definition.Fits v := (Definition.fits_iff v).mpr (by decide)
  have unfit : ¬ Definition.Fits w := by
    rw [Definition.fits_iff]
    decide
  obtain ⟨read, mirrored, -⟩ := reading_mirrors "drawn" "" v hv
  obtain ⟨d, hd⟩ := read.mpr ⟨fits, _, 2, rfl, drawn_version rfl⟩
  obtain ⟨-, -, refused⟩ := reading_mirrors "drawn" "" w hw
  obtain ⟨m, hm, he⟩ := refused unfit fun es hes => ⟨2, drawn_version hes⟩
  have told : firstComplaint? (Definition.parts w) = some "action must be a string or mapping, got int" := by decide
  rw [told] at hm
  cases hm
  exact ⟨hv, hw, fits, unfit, ⟨d, hd, mirrored d hd⟩, he⟩

end LoanLedger.Workflow
