import LoanLedger.Proofs.Documents
import LoanLedger.Proofs.Mirrored

/-!
# Documents in another spelling

* `Entries.get?_at`, `Entries.get?_rekeyed`, `Entries.get?_revalued` : what is found when one entry has another key or
  another value;
* `Transition.Respelled v w` : the mapping of a transition with its key `on` bare or as a text; `Definition.Respelled
  v w` : a document with some of its transitions spelled so;
* `Definition.Respelled.canonicalKeys?_eq`, `Definition.Respelled.ofValue?_eq` : both spellings have the same texts for
  keys, and the same definition is read from them;
* `checksum_ignores_spelling` : neither the order of entries nor the spelling of triggers changes the checksum.
-/

namespace LoanLedger

/-! ## One entry changed -/

theorem Value.sameKey_text_comm (k : Value) (s : String) : k.sameKey (.text s) = (Value.text s).sameKey k := by
  cases k <;> simp [Value.sameKey, Value.text?, Value.number?, eq_comm, Bool.beq_comm]

namespace Entries

variable {as bs : Entries} {k k' l t u : Value}

/-- What is found stands in the first entry whose key is the same. -/
theorem get?_at (ha : ∀ p ∈ as, p.1.sameKey l = false) (hk : k.sameKey l = true) :
    get? (as ++ (k, t) :: bs) l = some t := by
  induction as with
  | nil =>
    rw [List.nil_append, get?, hk]
    rfl
  | cons a as ih =>
    obtain ⟨first, ha⟩ := List.forall_mem_cons.mp ha
    rw [List.cons_append, get?, first]
    exact ih ha

theorem get?_rekeyed (hk : k.sameKey l = k'.sameKey l) :
    get? (as ++ (k, t) :: bs) l = get? (as ++ (k', t) :: bs) l := by
  induction as with
  | nil => rw [List.nil_append, List.nil_append, get?, get?, hk]
  | cons a as ih => rw [List.cons_append, List.cons_append, get?, get?, ih]

/-- Another value changes nothing, or is found in place of the first one. -/
theorem get?_revalued : get? (as ++ (k, t) :: bs) l = get? (as ++ (k, u) :: bs) l ∨
    k.sameKey l = true ∧ get? (as ++ (k, t) :: bs) l = some t ∧ get? (as ++ (k, u) :: bs) l = some u := by
  induction as with
  | nil =>
    rw [List.nil_append, List.nil_append, get?, get?]
    cases k.sameKey l <;> simp
  | cons a as ih =>
    rw [List.cons_append, List.cons_append, get?, get?]
    cases a.1.sameKey l with
    | true => exact .inl rfl
    | false => exact ih

end Entries

namespace Workflow

open Entries (get?_at get?_rekeyed get?_revalued)

variable {v w t u : Value} {vs ws : List Value} {es fs as bs : Entries} {k k' : Value} {source checksum name : String}
  {R : Value → Value → Prop}

/-! ## Spellings -/

/-- A bare `on`, which is read as a truth value, or the text. -/
def IsOn (k : Value) : Prop := k = .bool true ∨ k = .text "on"

/-- No two keys are the same, as in every mapping. -/
def AreApart (es : Entries) : Prop := es.Pairwise fun p q => p.1.sameKey q.1 = false

/-- The same mapping, its key for the trigger spelled in one way or the other. -/
def Transition.Respelled (v w : Value) : Prop :=
  v = w ∨ ∃ as bs k k' t, v = .map (as ++ (k, t) :: bs) ∧ w = .map (as ++ (k', t) :: bs) ∧
    IsOn k ∧ IsOn k' ∧ AreApart (as ++ (k, t) :: bs) ∧ AreApart (as ++ (k', t) :: bs)

/-- The same mapping, elements of a list in one of its fields spelled anew. -/
def RespelledIn (name : String) (R : Value → Value → Prop) (v w : Value) : Prop :=
  v = w ∨ ∃ as bs vs ws, v = .map (as ++ (.text name, .list vs) :: bs) ∧
    w = .map (as ++ (.text name, .list ws) :: bs) ∧ List.Forall₂ R vs ws

def State.Respelled : Value → Value → Prop := RespelledIn "transitions" Transition.Respelled

/-- The same document, some transitions of its states spelled anew. -/
def Definition.Respelled : Value → Value → Prop := RespelledIn "states" State.Respelled

/-! ## Texts for keys -/

/-- Entries have the same texts for keys where one key has the same name and its value the same texts. -/
theorem canonicalEntries?_congr (hk : keyName? k = keyName? k') (hv : canonicalKeys? t = canonicalKeys? u) :
    canonicalEntries? (as ++ (k, t) :: bs) = canonicalEntries? (as ++ (k', u) :: bs) := by
  induction as with
  | nil => rw [List.nil_append, List.nil_append, canonicalEntries?, canonicalEntries?, hk, hv]
  | cons a as ih => rw [List.cons_append, List.cons_append, canonicalEntries?_cons, canonicalEntries?_cons, ih]

theorem canonicalList?_congr (h : List.Forall₂ (fun v w => canonicalKeys? v = canonicalKeys? w) vs ws) :
    canonicalList? vs = canonicalList? ws := by
  induction h with
  | nil => rfl
  | cons hv _ ih => rw [canonicalList?, canonicalList?, hv, ih]

theorem IsOn.keyName? (h : IsOn k) : keyName? k = .ok "on" := by
  rcases h with rfl | rfl
  · rfl
  · exact Value.keyName?_text "on"

theorem Transition.Respelled.canonicalKeys?_eq (h : Transition.Respelled v w) :
    canonicalKeys? v = canonicalKeys? w := by
  rcases h with rfl | ⟨as, bs, k, k', t, rfl, rfl, hk, hk', -, -⟩
  · rfl
  · rw [canonicalKeys?, canonicalKeys?, canonicalEntries?_congr (hk.keyName?.trans hk'.keyName?.symm) rfl]

theorem RespelledIn.canonicalKeys?_eq (h : RespelledIn name R v w)
    (hR : ∀ v w, R v w → canonicalKeys? v = canonicalKeys? w) : canonicalKeys? v = canonicalKeys? w := by
  rcases h with rfl | ⟨as, bs, vs, ws, rfl, rfl, h⟩
  · rfl
  · have lists : canonicalKeys? (.list vs) = canonicalKeys? (.list ws) := by
      rw [canonicalKeys?, canonicalKeys?, canonicalList?_congr (h.imp hR)]
    rw [canonicalKeys?, canonicalKeys?, canonicalEntries?_congr rfl lists]

theorem Definition.Respelled.canonicalKeys?_eq (h : Definition.Respelled v w) : canonicalKeys? v = canonicalKeys? w :=
  RespelledIn.canonicalKeys?_eq h fun _ _ h => RespelledIn.canonicalKeys?_eq h fun _ _ =>
    Transition.Respelled.canonicalKeys?_eq

/-! ## Reading -/

/-- The trigger is found under either spelling. -/
theorem triggerOf_text (ht : AreApart (as ++ (.text "on", t) :: bs)) :
    triggerOf (as ++ (.text "on", t) :: bs) = t := by
  have front : ∀ p ∈ as, p.1.sameKey (.text "on") = false := by
    intro p hp
    exact (List.pairwise_append.mp ht).2.2 p hp _ List.mem_cons_self
  rw [triggerOf, Entries.field?, get?_at front (by decide)]
  rfl

theorem triggerOf_bare (ht : AreApart (as ++ (.text "on", t) :: bs)) (hb : AreApart (as ++ (.bool true, t) :: bs)) :
    triggerOf (as ++ (.bool true, t) :: bs) = t := by
  obtain ⟨-, behind, front⟩ := List.pairwise_append.mp ht
  have none : Entries.field? (as ++ (.bool true, t) :: bs) "on" = none := by
    apply Entries.get?_eq_none.mpr
    intro p hp
    rcases List.mem_append.mp hp with hp | hp
    · exact front p hp _ List.mem_cons_self
    · rcases List.mem_cons.mp hp with rfl | hp
      · rfl
      · rw [Value.sameKey_text_comm]
        exact (List.pairwise_cons.mp behind).1 p hp
  have front' : ∀ p ∈ as, p.1.sameKey (.bool true) = false := by
    intro p hp
    exact (List.pairwise_append.mp hb).2.2 p hp _ List.mem_cons_self
  rw [triggerOf, none, get?_at front' (by decide)]
  rfl

theorem IsOn.triggerOf_eq (hk : IsOn k) (hk' : IsOn k') (h : AreApart (as ++ (k, t) :: bs))
    (h' : AreApart (as ++ (k', t) :: bs)) : triggerOf (as ++ (k, t) :: bs) = triggerOf (as ++ (k', t) :: bs) := by
  rcases hk with rfl | rfl <;> rcases hk' with rfl | rfl
  · rfl
  · rw [triggerOf_bare h' h, triggerOf_text h']
  · rw [triggerOf_text h, triggerOf_bare h h']
  · rfl

/-- Other fields do not see the spelling. -/
theorem IsOn.field_eq (hk : IsOn k) (hk' : IsOn k') (hn : name ≠ "on") :
    Entries.field (as ++ (k, t) :: bs) name = Entries.field (as ++ (k', t) :: bs) name := by
  have other {k : Value} (hk : IsOn k) : k.sameKey (.text name) = false := by
    rcases hk with rfl | rfl
    · rfl
    · rw [Entries.sameKey_text]
      exact beq_false_of_ne hn.symm
  rw [Entries.field, Entries.field, Entries.field?, Entries.field?, get?_rekeyed ((other hk).trans (other hk').symm)]

theorem Transition.Respelled.ofValue?_eq (h : Transition.Respelled v w) :
    Transition.ofValue? source v = Transition.ofValue? source w := by
  rcases h with rfl | ⟨as, bs, k, k', t, rfl, rfl, hk, hk', apart, apart'⟩
  · rfl
  · rw [Transition.ofValue?, Transition.ofValue?, hk.field_eq hk' (by decide), hk.field_eq hk' (by decide),
      hk.triggerOf_eq hk' apart apart']

theorem mapM_congr {α : Type} {f : Value → Except ReadError α} (h : List.Forall₂ (fun v w => f v = f w) vs ws) :
    vs.mapM f = ws.mapM f := by
  induction h with
  | nil => rfl
  | cons hv _ ih => rw [List.mapM_cons, List.mapM_cons, hv, ih]

section Revalued

variable {α : Type} {f : Value → Except ReadError α} {other : String}

theorem field?_revalued (hn : other ≠ name) :
    Entries.field? (as ++ (.text name, t) :: bs) other = Entries.field? (as ++ (.text name, u) :: bs) other := by
  have apart : (Value.text name).sameKey (.text other) = false := by
    rw [Entries.sameKey_text]
    exact beq_false_of_ne hn.symm
  rcases get?_revalued with h | ⟨h, -⟩
  · exact h
  · rw [apart] at h
    cases h

theorem field_revalued (hn : other ≠ name) :
    Entries.field (as ++ (.text name, t) :: bs) other = Entries.field (as ++ (.text name, u) :: bs) other := by
  rw [Entries.field, field?_revalued hn]
  rfl

/-- Neither has a list there, or both have one, and these are read in the same way. -/
theorem listOf?_revalued (h : List.Forall₂ (fun v w => f v = f w) vs ws) :
    (listOf? (Entries.field (as ++ (.text name, .list vs) :: bs) name) = none ∧
      listOf? (Entries.field (as ++ (.text name, .list ws) :: bs) name) = none) ∨
    ∃ us xs, listOf? (Entries.field (as ++ (.text name, .list vs) :: bs) name) = some us ∧
      listOf? (Entries.field (as ++ (.text name, .list ws) :: bs) name) = some xs ∧ us.mapM f = xs.mapM f := by
  rw [Entries.field, Entries.field, Entries.field?, Entries.field?]
  rcases get?_revalued with same | ⟨-, hv, hw⟩
  · -- an earlier entry is found
    rw [same]
    cases listOf? ((Entries.get? (as ++ (.text name, .list ws) :: bs) (.text name)).getD .null) with
    | none => exact .inl ⟨rfl, rfl⟩
    | some us => exact .inr ⟨us, us, rfl, rfl, rfl⟩
  · rw [hv, hw]
    exact .inr ⟨vs, ws, listOf?_eq_some.mpr (.inr rfl), listOf?_eq_some.mpr (.inr rfl), mapM_congr h⟩

end Revalued

theorem State.Respelled.ofValue?_eq (h : State.Respelled v w) : State.ofValue? source v = State.ofValue? source w := by
  rcases h with rfl | ⟨as, bs, vs, ws, rfl, rfl, h⟩
  · rfl
  · have elements : List.Forall₂ (fun v w => Transition.ofValue? source v = Transition.ofValue? source w) vs ws :=
      h.imp fun _ _ => Transition.Respelled.ofValue?_eq
    have other {n : String} (hn : n ≠ "transitions") :
        Entries.field (as ++ (.text "transitions", .list vs) :: bs) n =
          Entries.field (as ++ (.text "transitions", .list ws) :: bs) n := field_revalued hn
    unfold State.ofValue?
    dsimp only
    rw [other (n := "id") (by decide), other (n := "description") (by decide)]
    rcases listOf?_revalued elements with ⟨hv, hw⟩ | ⟨us, xs, hv, hw, same⟩
    · rw [hv, hw]
    · rw [hv, hw]
      dsimp only
      rw [same]

/-- The same definition is read from both spellings, or both are refused alike. -/
theorem Definition.Respelled.ofValue?_eq (h : Definition.Respelled v w) :
    Definition.ofValue? source checksum v = Definition.ofValue? source checksum w := by
  rcases h with rfl | ⟨as, bs, vs, ws, rfl, rfl, h⟩
  · rfl
  · have elements : List.Forall₂ (fun v w => State.ofValue? source v = State.ofValue? source w) vs ws :=
      h.imp fun _ _ => State.Respelled.ofValue?_eq
    have other {n : String} (hn : n ≠ "states") :
        Entries.field (as ++ (.text "states", .list vs) :: bs) n =
          Entries.field (as ++ (.text "states", .list ws) :: bs) n := field_revalued hn
    have version : Entries.field? (as ++ (.text "states", .list vs) :: bs) "version" =
        Entries.field? (as ++ (.text "states", .list ws) :: bs) "version" := field?_revalued (by decide)
    unfold Definition.ofValue?
    dsimp only
    rw [version, other (n := "name") (by decide), other (n := "initial_state") (by decide),
      other (n := "description") (by decide)]
    rcases listOf?_revalued elements with ⟨hv, hw⟩ | ⟨us, xs, hv, hw, same⟩
    · rw [hv, hw]
    · rw [hv, hw]
      dsimp only
      rw [same]

/-! ## Checksums -/

theorem checksum?_congr (h : canonicalJson? v = canonicalJson? w) : checksum? v = checksum? w := by
  rw [checksum?, checksum?, canonicalText?_eq, canonicalText?_eq, h]

theorem checksum?_error {e : Json.Error} (h : checksum? v = .error e) : canonicalJson? v = .error e := by
  rw [checksum?, canonicalText?_eq] at h
  exact map_error (map_error h)

/-- The checksum does not see how a document is spelled. Documents of lists, maps and scalars, in whose maps no two keys
have the same name, have the same checksum where they are the same up to the order of entries at any depth. Sorting keys
does not fail, whatever their sorts are: only for a number that is too long to be written there is no checksum. And a
document with the key for the trigger of some transitions bare or as a text, in mappings either way, has the same
checksum and gives the same definition. -/
theorem checksum_ignores_spelling (v w : Value) :
    (v.IsDocument → v.Same w →
      checksum? w = checksum? v ∧ (v.isWritable = true → ∃ s, checksum? w = .ok s) ∧
      ∀ e, checksum? w = .error e → e = .numberTooLong) ∧
    (Definition.Respelled v w → checksum? w = checksum? v ∧
      ∀ source checksum, Definition.ofValue? source checksum w = Definition.ofValue? source checksum v) := by
  constructor
  · intro hv h
    obtain ⟨json, long⟩ := canonicalJson?_same hv h
    have same := checksum?_congr json
    have failed {e : Json.Error} (he : checksum? w = .error e) : e = .numberTooLong ∧ v.isWritable = false :=
      long e (checksum?_error (same ▸ he))
    refine ⟨same, ?_, fun e he => (failed he).1⟩
    intro writable
    cases hs : checksum? w with
    | ok s => exact ⟨s, rfl⟩
    | error e =>
      rw [(failed hs).2] at writable
      cases writable
  · intro h
    refine ⟨checksum?_congr ?_, fun source checksum => h.ofValue?_eq.symm⟩
    unfold canonicalJson?
    rw [h.canonicalKeys?_eq]

/-- A document whose maps mix sorts of keys, its entries as they came or turned around. -/
def signpost (on : Value) (isTurned : Bool) : Value :=
  let turn (es : Entries) := if isTurned then es.reverse else es
  .map (turn [(.null, .int 7), (.text "states", .list [.map [(.text "id", .text "here"), (.text "transitions", .list
    [.map (turn [(on, .text "go"), (.int 2, .null)])])]])])

theorem signpost_isDocument : (signpost (.text "on") false).IsDocument := by
  have two : keyName? (.int 2) = .ok "2" := ok_of_toOption (by decide +kernel)
  have null : keyName? .null = .ok "None" := ok_of_toOption (by decide +kernel)
  simp [signpost, Value.IsDocument, Value.HaveDocuments, Value.AreDocuments, NamesApart, two, null, Value.keyName?_text]

theorem signpost_same : (signpost (.text "on") false).Same (signpost (.text "on") true) := by
  refine ⟨_, .swap _ _ _, rfl, rfl, rfl, ⟨⟨_, .refl _, rfl, rfl, rfl,
    ⟨⟨_, .swap _ _ _, rfl, rfl, rfl, rfl, trivial⟩, trivial⟩, trivial⟩, trivial⟩, trivial⟩

theorem signpost_respelled : Definition.Respelled (signpost (.text "on") false) (signpost (.bool true) false) := by
  have text : AreApart [(.text "on", .text "go"), (.int 2, .null)] := by
    unfold AreApart
    decide +kernel
  have bare : AreApart [(.bool true, .text "go"), (.int 2, .null)] := by
    unfold AreApart
    decide +kernel
  refine .inr ⟨[(.null, .int 7)], [], _, _, rfl, rfl, .cons ?_ .nil⟩
  refine .inr ⟨[(.text "id", .text "here")], [], _, _, rfl, rfl, .cons ?_ .nil⟩
  exact .inr ⟨[], [(.int 2, .null)], _, _, _, rfl, rfl, .inr rfl, .inl rfl, text, bare⟩

/-- The document, the one turned around and the one with a bare trigger have the same checksum, and the last one gives
the same definition as the first. -/
theorem checksum_ignores_spelling_of_signpost :
    let v := signpost (.text "on") false
    v.IsDocument ∧ v.Same (signpost (.text "on") true) ∧ Definition.Respelled v (signpost (.bool true) false) ∧
      (∃ s, checksum? v = .ok s ∧ checksum? (signpost (.text "on") true) = .ok s ∧
        checksum? (signpost (.bool true) false) = .ok s) ∧
      Definition.ofValue? "signpost" "" (signpost (.bool true) false) = Definition.ofValue? "signpost" "" v := by
  intro v
  obtain ⟨turned, written, -⟩ := (checksum_ignores_spelling v _).1 signpost_isDocument signpost_same
  obtain ⟨bare, read⟩ := (checksum_ignores_spelling v _).2 signpost_respelled
  obtain ⟨s, hs⟩ := written (by decide +kernel)
  have first : checksum? v = .ok s := turned ▸ hs
  exact ⟨signpost_isDocument, signpost_same, signpost_respelled, ⟨s, first, hs, bare.trans first⟩,
    read "signpost" ""⟩

end Workflow

end LoanLedger
