import LoanLedger.Proofs.Loading
import LoanLedger.Proofs.Mirrored

/-!
# What reading a document comes to

* `Step` : the steps of reading a document: looking at the shape of a part, reading a text, reading the version;
  `Definition.steps v` : those of the document `v`, in their order;
* `firstFault? source steps` : what goes wrong at the first step at which something does;
* `Follows source r steps` : the result `r` is what these steps come to;
* `reading_outcomes` : reading a document follows its steps; what goes wrong is told as a complaint, unless the
  version is an infinity or a number is too long to be written.
-/

namespace LoanLedger.Workflow

variable {v w : Value} {vs : List Value} {es : Entries} {source checksum name m : String} {e : ReadError} {α β : Type}

/-! ## Steps -/

inductive Step where
  | shape (p : Part)
  | text (v : Value)
  | version (v : Value)

/-- What goes wrong at a step. -/
def Step.fault? (source : String) : Step → Option ReadError
  | shape p => p.complaint?.map (invalid source)
  | text v => if v.isWritable then none else some (.numeral .numberTooLong)
  | version v => match wholeOf v with
    | .number _ => none
    | .infinite isDecimal => some (.infinite isDecimal)
    | .none => some (if v.isWritable then invalid source ("version must be an integer, got " ++ v.quoted)
        else .numeral .numberTooLong)

def firstFault? (source : String) (steps : List Step) : Option ReadError :=
  steps.findSome? (Step.fault? source)

def versionField (es : Entries) : Value :=
  (Entries.field? es "version").getD (.int 0)

def Action.steps : Value → List Step
  | .map es => [.shape (.action (.map es)), .text (Entries.field es "trigger")]
  | v => [.shape (.action v)]

def Transition.steps : Value → List Step
  | .map es => .shape (.transition (.map es)) :: .text (triggerOf es) :: .text (Entries.field es "to") ::
      (elementsIn es "actions").flatMap Action.steps
  | v => [.shape (.transition v)]

def State.steps : Value → List Step
  | .map es => .text (Entries.field es "id") :: .shape (.state (.map es)) ::
      ((elementsIn es "transitions").flatMap Transition.steps ++ [.text (Entries.field es "description")])
  | v => [.shape (.state v)]

/-- The steps of reading a document that come after its shape and its version. -/
def Definition.laterSteps (es : Entries) : List Step :=
  .text (Entries.field es "name") :: .text (Entries.field es "initial_state") ::
    ((elementsIn es "states").flatMap State.steps ++ [.text (Entries.field es "description")])

def Definition.steps : Value → List Step
  | .map es => .shape (.document (.map es)) :: .version (versionField es) :: laterSteps es
  | v => [.shape (.document v)]

/-! ## Following steps -/

/-- A result is what steps come to: something, or the first fault. -/
def Follows (source : String) (r : Except ReadError α) (steps : List Step) : Prop :=
  (firstFault? source steps = none ∧ ∃ a, r = .ok a) ∨ ∃ e, firstFault? source steps = some e ∧ r = .error e

theorem firstFault?_cons {s : Step} {ss : List Step} :
    firstFault? source (s :: ss) = (s.fault? source).or (firstFault? source ss) := by
  cases h : s.fault? source <;> simp [firstFault?, h]

theorem firstFault?_append {ss ts : List Step} :
    firstFault? source (ss ++ ts) = (firstFault? source ss).or (firstFault? source ts) :=
  List.findSome?_append

namespace Follows

variable {r : Except ReadError α} {s : Step} {ss ts : List Step} {p : Part}

theorem isOk_iff (h : Follows source r ss) : (∃ a, r = .ok a) ↔ firstFault? source ss = none := by
  rcases h with ⟨hn, ha⟩ | ⟨e, he, rfl⟩
  · exact iff_of_true ha hn
  · simp [he]

theorem eq_error_iff (h : Follows source r ss) : r = .error e ↔ firstFault? source ss = some e := by
  rcases h with ⟨hn, a, rfl⟩ | ⟨e, he, rfl⟩
  · simp [hn]
  · simp [he]

theorem pure (a : α) : Follows source (.ok a) [] :=
  .inl ⟨rfl, a, rfl⟩

/-- What comes after a result comes after its steps. -/
theorem bind {f : α → Except ReadError β} (h : Follows source r ss)
    (hf : ∀ a, r = .ok a → Follows source (f a) ts) : Follows source (r >>= f) (ss ++ ts) := by
  unfold Follows
  rw [firstFault?_append]
  rcases h with ⟨hn, a, rfl⟩ | ⟨e, he, rfl⟩
  · rw [hn, Option.none_or]
    exact hf a rfl
  · rw [he, Option.some_or]
    exact .inr ⟨e, rfl, rfl⟩

theorem bind_ok {f : α → Except ReadError β} (h : Follows source r ss) (hf : ∀ a, ∃ b, f a = .ok b) :
    Follows source (r >>= f) ss := by
  rw [← List.append_nil ss]
  apply h.bind
  intro a _
  obtain ⟨b, hb⟩ := hf a
  rw [hb]
  exact pure b

theorem mapM {f : Value → Except ReadError α} {steps : Value → List Step}
    (h : ∀ v, Follows source (f v) (steps v)) : Follows source (vs.mapM f) (vs.flatMap steps) := by
  induction vs with
  | nil => exact pure []
  | cons v vs ih =>
    rw [List.mapM_cons, List.flatMap_cons]
    apply (h v).bind
    intro a _
    exact ih.bind_ok fun as => ⟨a :: as, rfl⟩

theorem shape (hp : p.complaint? = none) (h : Follows source r ss) : Follows source r (.shape p :: ss) := by
  unfold Follows
  rw [firstFault?_cons, Step.fault?, hp]
  exact h

theorem refused (hp : p.complaint? = some m) :
    Follows source (.error (invalid source m) : Except ReadError α) (.shape p :: ss) := by
  apply Or.inr
  refine ⟨_, ?_, rfl⟩
  rw [firstFault?_cons, Step.fault?, hp]
  rfl

variable {part : Value → Part} {noMap : Value → String} {noList : Entries → String}

theorem listed (hp : ∀ v, (part v).complaint? = mapComplaint? noMap name noList v)
    (hl : listOf? (Entries.field es name) = some vs) (h : Follows source r ss) :
    Follows source r (.shape (part (.map es)) :: ss) :=
  .shape (by simp [hp, mapComplaint?, hl]) h

theorem unlisted (hp : ∀ v, (part v).complaint? = mapComplaint? noMap name noList v)
    (hl : listOf? (Entries.field es name) = none) :
    Follows source (.error (invalid source (noList es)) : Except ReadError α) (.shape (part (.map es)) :: ss) :=
  .refused (by simp [hp, mapComplaint?, hl])

/-- A text is read if it can be written. -/
theorem text (v : Value) : Follows source (textOf v) [.text v] := by
  have fault : firstFault? source [.text v] = if v.isWritable then none else some (.numeral .numberTooLong) := by
    rw [firstFault?_cons]
    exact Option.or_none
  have read : textOf v = .ok "" ∧ v.isWritable = true ∨ textOf v = (v.label?.map Text.trim).mapError .numeral := by
    by_cases hv : v = .null
    · subst hv
      exact .inl ⟨rfl, Value.isWritable_of_largestInt rfl⟩
    · exact .inr (by rw [textOf, trimmed?_of_ne_null hv])
  unfold Follows
  rw [fault]
  rcases read with ⟨ht, hw⟩ | ht
  · exact .inl ⟨if_pos hw, _, ht⟩
  · rw [ht, Value.label?]
    cases v.isWritable with
    | true => exact .inl ⟨rfl, _, rfl⟩
    | false => exact .inr ⟨_, rfl, rfl⟩

theorem version (v : Value) : Follows source (versionOf source v) [.version v] := by
  have fault : firstFault? source [.version v] = Step.fault? source (.version v) := by
    rw [firstFault?_cons]
    exact Option.or_none
  unfold Follows
  rw [fault, versionOf, Step.fault?]
  cases wholeOf v with
  | number n => exact .inl ⟨rfl, n, rfl⟩
  | infinite isDecimal => exact .inr ⟨_, rfl, rfl⟩
  | none =>
    rw [Value.quoted?]
    cases v.isWritable <;> exact .inr ⟨_, rfl, rfl⟩

end Follows

/-! ## Reading -/

theorem elementsIn_eq (hl : listOf? (Entries.field es name) = some vs) : elementsIn es name = vs := by
  rw [elementsIn, hl]
  rfl

theorem Action.follows (v : Value) : Follows source (Action.ofValue? source v) (Action.steps v) := by
  cases v with
  | map es =>
    apply Follows.shape rfl
    exact (Follows.text (Entries.field es "trigger")).bind_ok fun s => ⟨.ofTrigger s, rfl⟩
  | text | tag => exact .shape rfl (.pure _)
  | null | bool | int | float | decimal | bytes | uuid | date | time | list | tuple | set | other => exact .refused rfl

theorem Transition.follows (v : Value) : Follows source (Transition.ofValue? source v) (Transition.steps v) := by
  cases v with
  | map es =>
    unfold Transition.ofValue? Transition.steps
    dsimp only
    cases hl : listOf? (Entries.field es "actions") with
    | none => apply Follows.unlisted (fun _ => rfl) hl
    | some vs =>
      rw [elementsIn_eq hl]
      apply Follows.listed (fun _ => rfl) hl
      apply (Follows.text (triggerOf es)).bind
      intro on _
      apply (Follows.text (Entries.field es "to")).bind
      intro target _
      exact (Follows.mapM Action.follows).bind_ok fun actions => ⟨_, rfl⟩
  | null | bool | int | float | decimal | text | bytes | uuid | date | time | tag | list | tuple | set | other =>
    exact .refused rfl

theorem State.follows (v : Value) : Follows source (State.ofValue? source v) (State.steps v) := by
  cases v with
  | map es =>
    unfold State.ofValue? State.steps
    dsimp only
    cases hl : listOf? (Entries.field es "transitions") with
    | none =>
      apply (Follows.text (Entries.field es "id")).bind
      intro id hid
      -- the complaint tells the id that was read
      have told : (textOf (Entries.field es "id")).toOption.getD "" = id := by rw [hid]; rfl
      rw [← told]
      apply Follows.unlisted (fun _ => rfl) hl
    | some vs =>
      rw [elementsIn_eq hl]
      apply (Follows.text (Entries.field es "id")).bind
      intro id _
      apply Follows.listed (fun _ => rfl) hl
      apply (Follows.mapM Transition.follows).bind
      intro transitions _
      exact (Follows.text (Entries.field es "description")).bind_ok fun description => ⟨_, rfl⟩
  | null | bool | int | float | decimal | text | bytes | uuid | date | time | tag | list | tuple | set | other =>
    exact .refused rfl

/-- Reading a document comes to what its steps come to. -/
theorem Definition.follows (v : Value) :
    Follows source (Definition.ofValue? source checksum v) (Definition.steps v) := by
  cases v with
  | map es =>
    unfold Definition.ofValue? Definition.steps Definition.laterSteps
    dsimp only
    cases hl : listOf? (Entries.field es "states") with
    | none => apply Follows.unlisted (fun _ => rfl) hl
    | some vs =>
      rw [elementsIn_eq hl]
      apply Follows.listed (fun _ => rfl) hl
      apply (Follows.version (versionField es)).bind
      intro version _
      apply (Follows.text (Entries.field es "name")).bind
      intro name _
      apply (Follows.text (Entries.field es "initial_state")).bind
      intro initialState _
      apply (Follows.mapM State.follows).bind
      intro states _
      exact (Follows.text (Entries.field es "description")).bind_ok fun description => ⟨_, rfl⟩
  | null | bool | int | float | decimal | text | bytes | uuid | date | time | tag | list | tuple | set | other =>
    exact .refused rfl

/-! ## What is read is in the document -/

theorem largestInt_of_get? {k : Value} (h : Entries.get? es k = some v) : v.largestInt ≤ Value.largestEntries es := by
  induction es with
  | nil => cases h
  | cons e es ih =>
    rw [Entries.get?] at h
    rw [Value.largestEntries]
    split at h
    · cases h
      omega
    · have rest := ih h
      omega

theorem largestInt_getD {o : Option Value} {n : Nat} (h : ∀ v, o = some v → v.largestInt ≤ n)
    (hd : w.largestInt = 0) : (o.getD w).largestInt ≤ n := by
  cases o with
  | none =>
    rw [Option.getD_none]
    omega
  | some v => exact h v rfl

theorem largestInt_field : (Entries.field es name).largestInt ≤ Value.largestEntries es :=
  largestInt_getD (fun _ => largestInt_of_get?) rfl

theorem largestInt_triggerOf : (triggerOf es).largestInt ≤ Value.largestEntries es := by
  unfold triggerOf
  cases hf : Entries.field? es "on" with
  | some v => exact largestInt_of_get? hf
  | none =>
    rw [Option.getD_none]
    exact largestInt_getD (fun _ => largestInt_of_get?) rfl

theorem largestInt_of_mem (h : w ∈ vs) : w.largestInt ≤ Value.largestInts vs := by
  induction h with
  | head vs =>
    rw [Value.largestInts]
    omega
  | tail v _ ih =>
    rw [Value.largestInts]
    omega

theorem largestInt_of_mem_elementsIn (h : w ∈ elementsIn es name) : w.largestInt ≤ Value.largestEntries es := by
  cases hl : listOf? (Entries.field es name) with
  | none => simp [elementsIn, hl] at h
  | some vs =>
    rw [elementsIn_eq hl] at h
    rcases listOf?_eq_some.mp hl with ⟨-, rfl⟩ | hv
    · cases h
    · have field : (Entries.field es name).largestInt ≤ Value.largestEntries es := largestInt_field
      have element := largestInt_of_mem h
      rw [hv, Value.largestInt] at field
      omega

/-- A step reads no version, and no text with a number larger than this. -/
def Step.IsWithin (n : Nat) : Step → Prop
  | shape _ => True
  | text v => v.largestInt ≤ n
  | version _ => False

theorem Step.IsWithin.mono {n k : Nat} {s : Step} (h : s.IsWithin n) (hk : n ≤ k) : s.IsWithin k := by
  cases s with
  | shape => trivial
  | text v => exact Nat.le_trans h hk
  | version => exact h

theorem isWithin_flatMap {steps : Value → List Step} (h : ∀ v, ∀ s ∈ steps v, s.IsWithin v.largestInt) :
    ∀ s ∈ (elementsIn es name).flatMap steps, s.IsWithin (Value.largestEntries es) := by
  intro s hs
  obtain ⟨w, hw, hs⟩ := List.mem_flatMap.mp hs
  exact (h w s hs).mono (largestInt_of_mem_elementsIn hw)

theorem Action.isWithin (v : Value) : ∀ s ∈ Action.steps v, s.IsWithin v.largestInt := by
  cases v with
  | map es => simp [Action.steps, Step.IsWithin, Value.largestInt, largestInt_field]
  | null | bool | int | float | decimal | text | bytes | uuid | date | time | tag | list | tuple | set | other =>
    simp [Action.steps, Step.IsWithin]

theorem Transition.isWithin (v : Value) : ∀ s ∈ Transition.steps v, s.IsWithin v.largestInt := by
  cases v with
  | map es =>
    simp only [Transition.steps, List.forall_mem_cons]
    exact ⟨trivial, largestInt_triggerOf, largestInt_field, isWithin_flatMap Action.isWithin⟩
  | null | bool | int | float | decimal | text | bytes | uuid | date | time | tag | list | tuple | set | other =>
    simp [Transition.steps, Step.IsWithin]

theorem State.isWithin (v : Value) : ∀ s ∈ State.steps v, s.IsWithin v.largestInt := by
  cases v with
  | map es =>
    simp only [State.steps, List.forall_mem_cons, List.forall_mem_append]
    exact ⟨largestInt_field, trivial, isWithin_flatMap Transition.isWithin, largestInt_field, List.forall_mem_nil _⟩
  | null | bool | int | float | decimal | text | bytes | uuid | date | time | tag | list | tuple | set | other =>
    simp [State.steps, Step.IsWithin]

theorem Definition.isWithin (es : Entries) :
    ∀ s ∈ Definition.laterSteps es, s.IsWithin (Value.largestEntries es) := by
  simp only [Definition.laterSteps, List.forall_mem_cons, List.forall_mem_append]
  exact ⟨largestInt_field, largestInt_field, isWithin_flatMap State.isWithin, largestInt_field,
    List.forall_mem_nil _⟩

/-! ## Faults -/

theorem firstFault?_cons_eq_some {s : Step} {ss : List Step} : firstFault? source (s :: ss) = some e ↔
    s.fault? source = some e ∨ s.fault? source = none ∧ firstFault? source ss = some e := by
  rw [firstFault?_cons, Option.or_eq_some_iff]

namespace Step

theorem fault?_shape {p : Part} (h : fault? source (.shape p) = some e) : ∃ m, e = invalid source m := by
  obtain ⟨m, -, he⟩ := Option.map_eq_some_iff.mp h
  exact ⟨m, he.symm⟩

theorem fault?_text (h : fault? source (.text v) = some e) : e = .numeral .numberTooLong ∧ v.isWritable = false := by
  rw [fault?] at h
  split at h
  · cases h
  · next hw =>
    cases h
    exact ⟨rfl, Bool.not_eq_true _ ▸ hw⟩

/-- A version that does not convert is told, but for infinities and what cannot be written. -/
theorem fault?_version (h : fault? source (.version v) = some e) :
    (∃ m, e = invalid source m) ∨ (∃ b, wholeOf v = .infinite b ∧ e = .infinite b) ∨
      e = .numeral .numberTooLong ∧ v.isWritable = false := by
  rw [fault?] at h
  cases hw : wholeOf v with
  | number n =>
    rw [hw] at h
    cases h
  | infinite b =>
    rw [hw] at h
    cases h
    exact .inr (.inl ⟨b, rfl, rfl⟩)
  | none =>
    rw [hw] at h
    cases hv : v.isWritable with
    | true =>
      rw [hv] at h
      exact .inl ⟨_, (Option.some.inj h).symm⟩
    | false =>
      rw [hv] at h
      exact .inr (.inr ⟨(Option.some.inj h).symm, rfl⟩)

/-- What goes wrong at a step that reads no version is told, or a number is too long. -/
theorem IsWithin.fault {n : Nat} {s : Step} (hs : s.IsWithin n) (h : s.fault? source = some e) :
    (∃ m, e = invalid source m) ∨ e = .numeral .numberTooLong ∧ Nat.pow 10 Numeral.digitLimit ≤ n := by
  cases s with
  | shape p => exact .inl (fault?_shape h)
  | text v =>
    obtain ⟨he, hv⟩ := fault?_text h
    exact .inr ⟨he, Nat.le_trans (Value.isWritable_eq_false.mp hv) hs⟩
  | version => exact hs.elim

end Step

/-- What goes wrong with a document: a complaint, an infinite version, or a number too long to be written. -/
theorem Definition.fault (h : firstFault? source (Definition.steps v) = some e) :
    (∃ m, e = invalid source m) ∨
      (∃ es vs b, v = .map es ∧ IsListOf (Entries.field es "states") vs ∧
        wholeOf (versionField es) = .infinite b ∧ e = .infinite b) ∨
      e = .numeral .numberTooLong ∧ v.isWritable = false := by
  cases v with
  | map es =>
    have within {n : Nat} (hn : n ≤ Value.largestEntries es) (h : Nat.pow 10 Numeral.digitLimit ≤ n) :
        (Value.map es).isWritable = false :=
      Value.isWritable_eq_false.mpr (Nat.le_trans h hn)
    rcases firstFault?_cons_eq_some.mp h with shape | ⟨shape, h⟩
    · exact .inl (Step.fault?_shape shape)
    · have listed : ∃ vs, IsListOf (Entries.field es "states") vs := by
        have right : mapComplaint? (fun _ => "document must be a mapping") "states" (fun _ => "states must be a list")
            (.map es) = none := Option.map_eq_none_iff.mp shape
        obtain ⟨_, vs, ⟨⟩, hl⟩ := mapComplaint?_eq_none.mp right
        exact ⟨vs, hl⟩
      obtain ⟨vs, hl⟩ := listed
      rcases firstFault?_cons_eq_some.mp h with version | ⟨-, later⟩
      · rcases Step.fault?_version version with told | ⟨b, hb, he⟩ | ⟨he, hw⟩
        · exact .inl told
        · exact .inr (.inl ⟨es, vs, b, rfl, hl, hb, he⟩)
        · have field : (versionField es).largestInt ≤ Value.largestEntries es :=
            largestInt_getD (fun _ => largestInt_of_get?) rfl
          exact .inr (.inr ⟨he, within field (Value.isWritable_eq_false.mp hw)⟩)
      · obtain ⟨s, hmem, hf⟩ := List.exists_of_findSome?_eq_some later
        rcases (Definition.isWithin es s hmem).fault hf with told | ⟨he, hn⟩
        · exact .inl told
        · exact .inr (.inr ⟨he, within (Nat.le_refl _) hn⟩)
  | null | bool | int | float | decimal | text | bytes | uuid | date | time | tag | list | tuple | set | other =>
    rcases firstFault?_cons_eq_some.mp h with shape | ⟨-, h⟩
    · exact .inl (Step.fault?_shape shape)
    · cases h

/-- An infinite version is the first fault of a mapping with a list of states. -/
theorem Definition.infinite_iff {b : Bool} : Definition.ofValue? source checksum v = .error (.infinite b) ↔
    ∃ es vs, v = .map es ∧ IsListOf (Entries.field es "states") vs ∧ wholeOf (versionField es) = .infinite b := by
  rw [(Definition.follows v).eq_error_iff]
  constructor
  · intro h
    rcases Definition.fault h with ⟨m, he⟩ | ⟨es, vs, c, hv, hl, hw, he⟩ | ⟨he, -⟩
    · cases he
    · cases he
      exact ⟨es, vs, hv, hl, hw⟩
    · cases he
  · rintro ⟨es, vs, rfl, hl, hw⟩
    have shape : Step.fault? source (.shape (.document (.map es))) = none := by
      simp [Step.fault?, Part.complaint?, mapComplaint?, listOf?_eq_some.mpr hl]
    have version : Step.fault? source (.version (versionField es)) = some (.infinite b) := by
      rw [Step.fault?, hw]
    exact firstFault?_cons_eq_some.mpr (.inr ⟨shape, firstFault?_cons_eq_some.mpr (.inl version)⟩)

/-- Of the values of a document only infinities of the format convert to none. -/
theorem wholeOf_infinite_iff {b : Bool} (hv : v.IsLoaded) :
    wholeOf v = .infinite b ↔ b = false ∧ ∃ neg, v = .float (.infinity neg) := by
  have read {s : String} : wholeOf.read s ≠ .infinite b := by
    unfold wholeOf.read
    split <;> nofun
  cases v with
  | float x =>
    cases x with
    | nan => simp [wholeOf, Binary64.truncate?]
    | infinity neg => simp [wholeOf, eq_comm]
    | finite neg m e => simp [wholeOf, Binary64.truncate?]
  | bytes bs => simpa [wholeOf] using read
  | text s => simpa [wholeOf, Value.text?] using read
  | null | bool | int | date | time | list | tuple | set | map => simp [wholeOf, Value.text?]
  | decimal | uuid | tag | other => exact hv.elim

theorem isLoaded_versionField (hv : (Value.map es).IsLoaded) : (versionField es).IsLoaded :=
  isLoaded_getD (fun _ => isLoaded_of_get? hv) trivial

/-- What reading a document comes to. Something goes wrong exactly at the first step at which something can, and is then
told in one message, apart from two things: an infinity cannot be a version, and a number that is too long cannot be
written. The first happens exactly to mappings with a list of states, if any, and an infinite version; where documents
are read from texts it is the infinity of the format. The second only happens to documents that have such a number. -/
theorem reading_outcomes (source checksum : String) (v : Value) :
    ((∃ d, Definition.ofValue? source checksum v = .ok d) ↔ firstFault? source (Definition.steps v) = none) ∧
    (∀ e, Definition.ofValue? source checksum v = .error e → firstFault? source (Definition.steps v) = some e ∧
      ((∃ m, e = .failure (.definitionInvalid source [m])) ∨ (∃ b, e = .infinite b) ∨
        e = .numeral .numberTooLong ∧ v.isWritable = false)) ∧
    (∀ b, Definition.ofValue? source checksum v = .error (.infinite b) ↔
      ∃ es vs, v = .map es ∧ IsListOf (Entries.field es "states") vs ∧
      wholeOf (versionField es) = .infinite b) ∧
    ∀ text, Yaml.read? text = .ok v → ∀ b, Definition.ofValue? source checksum v = .error (.infinite b) ↔
      b = false ∧ ∃ es vs neg, v = .map es ∧ IsListOf (Entries.field es "states") vs ∧
        versionField es = .float (.infinity neg) := by
  have follows : Follows source (Definition.ofValue? source checksum v) (Definition.steps v) := Definition.follows v
  refine ⟨follows.isOk_iff, ?_, fun b => Definition.infinite_iff, ?_⟩
  · intro e h
    have fault := follows.eq_error_iff.mp h
    refine ⟨fault, ?_⟩
    rcases Definition.fault fault with told | ⟨_, _, b, _, _, _, he⟩ | long
    · exact .inl told
    · exact .inr (.inl ⟨b, he⟩)
    · exact .inr (.inr long)
  · intro text h b
    rw [Definition.infinite_iff]
    have loaded := Yaml.isLoaded_of_read? h
    constructor
    · rintro ⟨es, vs, rfl, hl, hw⟩
      obtain ⟨hb, neg, hx⟩ := (wholeOf_infinite_iff (isLoaded_versionField loaded)).mp hw
      exact ⟨hb, es, vs, neg, rfl, hl, hx⟩
    · rintro ⟨rfl, es, vs, neg, rfl, hl, hx⟩
      refine ⟨es, vs, rfl, hl, ?_⟩
      rw [hx]
      rfl

def infinity? : Except ReadError α → Option Bool
  | .error (.infinite b) => some b
  | _ => none

theorem infinity?_eq_some {r : Except ReadError α} {b : Bool} : infinity? r = some b ↔ r = .error (.infinite b) := by
  rcases r with (_ | _ | c) | a <;> simp [infinity?]

/-- A document with an infinite version. -/
def boundless : String :=
  "name: n\nversion: .inf\ninitial_state: A\nstates: [\x7bid: A\x7d]\n"

/-- It gives no definition, and nothing is told about it. -/
theorem boundless_escapes : ∃ v, Yaml.read? boundless = .ok v ∧
    Definition.ofValue? "definition.yaml" "" v = .error (.infinite false) ∧
    ¬ ((∃ d, Definition.ofValue? "definition.yaml" "" v = .ok d) ∨
      ∃ errors, Definition.ofValue? "definition.yaml" "" v =
        .error (.failure (.definitionInvalid "definition.yaml" errors))) := by
  have outcome : (Yaml.read? boundless).toOption.bind
      (fun v => infinity? (Definition.ofValue? "definition.yaml" "" v)) = some false := by decide +kernel
  obtain ⟨v, hv, h⟩ := Option.bind_eq_some_iff.mp outcome
  have escapes := infinity?_eq_some.mp h
  refine ⟨v, ok_of_toOption hv, escapes, ?_⟩
  rw [escapes]
  rintro (⟨d, hd⟩ | ⟨errors, he⟩)
  · cases hd
  · cases he

end LoanLedger.Workflow
