import LoanLedger.Proofs.Members
import LoanLedger.Proofs.Reordered

/-!
# Documents in any order

* `Value.IsDocument v` : `v` is made of lists, maps and scalars, and no two keys of a map in it have the same name;
* `Agree P x y` : two results that `P` holds of, or a number that is too long for both;
* `canonicalKeys?_agree` : documents that are the same up to the order of entries are so with texts for keys;
* `Json.ofValue_document_error` : under such keys sorting does not fail;
* `canonicalJson?_same` : so the documents have the same canonical JSON, unless a number is too long to be written.
-/

namespace LoanLedger

/-! ## Documents -/

def NamesApart (k k' : Value) : Prop := ∀ s, Workflow.keyName? k = .ok s → Workflow.keyName? k' ≠ .ok s

namespace Value

mutual

/-- Lists, maps and scalars; no two keys of a map have the same name. -/
def IsDocument : Value → Prop
  | list vs => AreDocuments vs
  | map es => (es.Pairwise fun p q => NamesApart p.1 q.1) ∧ HaveDocuments es
  | tuple _ | set _ => False
  | _ => True

def AreDocuments : List Value → Prop
  | [] => True
  | v :: vs => IsDocument v ∧ AreDocuments vs

def HaveDocuments : List (Value × Value) → Prop
  | [] => True
  | (_, v) :: es => IsDocument v ∧ HaveDocuments es

end

theorem EntriesSame.keys_eq : ∀ {es gs : List (Value × Value)}, EntriesSame es gs → es.map (·.1) = gs.map (·.1)
  | [], [], _ => rfl
  | (k, _) :: es, (_, _) :: gs, ⟨hk, _, h⟩ => by
    subst hk
    exact congrArg (k :: ·) (EntriesSame.keys_eq h)

end Value

/-! ## Results that agree -/

section Agree

variable {α β γ δ : Type} {P : α → β → Prop} {x : Except Json.Error α} {y : Except Json.Error β}

/-- There are two results that `P` holds of, or a number is too long for both. -/
def Agree (P : α → β → Prop) (x : Except Json.Error α) (y : Except Json.Error β) : Prop :=
  (∃ a b, x = .ok a ∧ y = .ok b ∧ P a b) ∨ x = .error .numberTooLong ∧ y = .error .numberTooLong

namespace Agree

theorem ok {a : α} {b : β} (h : P a b) : Agree P (.ok a) (.ok b) :=
  .inl ⟨a, b, rfl, rfl, h⟩

theorem self (h : ∀ e, x = .error e → e = .numberTooLong) : Agree (· = ·) x x := by
  cases x with
  | error e =>
    obtain rfl := h e rfl
    exact .inr ⟨rfl, rfl⟩
  | ok a => exact .ok rfl

theorem bind {Q : γ → δ → Prop} {f : α → Except Json.Error γ} {g : β → Except Json.Error δ}
    (h : Agree P x y) (hf : ∀ a b, P a b → Agree Q (f a) (g b)) : Agree Q (x >>= f) (y >>= g) := by
  rcases h with ⟨a, b, rfl, rfl, hp⟩ | ⟨rfl, rfl⟩
  · exact hf a b hp
  · exact .inr ⟨rfl, rfl⟩

theorem map {Q : γ → δ → Prop} {f : α → γ} {g : β → δ} (h : Agree P x y)
    (hf : ∀ a b, P a b → Q (f a) (g b)) : Agree Q (x.map f) (y.map g) := by
  rcases h with ⟨a, b, rfl, rfl, hp⟩ | ⟨rfl, rfl⟩
  · exact .ok (hf a b hp)
  · exact .inr ⟨rfl, rfl⟩

theorem trans {Q : β → γ → Prop} {z : Except Json.Error γ} (h : Agree P x y) (h' : Agree Q y z) :
    Agree (fun a c => ∃ b, P a b ∧ Q b c) x z := by
  rcases h with ⟨a, b, rfl, rfl, hp⟩ | ⟨rfl, rfl⟩
  · rcases h' with ⟨b', c, hb, rfl, hq⟩ | ⟨hb, -⟩
    · cases hb
      exact .ok ⟨b, hp, hq⟩
    · cases hb
  · rcases h' with ⟨b', c, hb, -, -⟩ | ⟨-, rfl⟩
    · cases hb
    · exact .inr ⟨rfl, rfl⟩

/-- Two steps may be taken in either order. -/
theorem swap {Q : γ → δ → Prop} {f : α → β → Except Json.Error γ} {g : α → β → Except Json.Error δ}
    (hx : Agree (· = ·) x x) (hy : Agree (· = ·) y y) (hf : ∀ a b, Agree Q (f a b) (g a b)) :
    Agree Q (x >>= fun a => y >>= f a) (y >>= fun b => x >>= fun a => g a b) := by
  rcases hx with ⟨a, _, rfl, -, -⟩ | ⟨rfl, -⟩ <;> rcases hy with ⟨b, _, rfl, -, -⟩ | ⟨rfl, -⟩
  · exact hf a b
  all_goals exact .inr ⟨rfl, rfl⟩

end Agree

end Agree

/-! ## Texts for keys -/

namespace Workflow

open Value (IsDocument AreDocuments HaveDocuments Same AllSame EntriesSame largestInt largestInts largestEntries)

variable {v w : Value} {vs : List Value} {es fs ps : Entries} {e : Json.Error}

theorem keyName?_error {k : Value} (h : keyName? k = .error e) : e = .numberTooLong ∧ k.isWritable = false := by
  unfold keyName? at h
  split at h
  · cases h
  · split at h
    · cases h
    · next hl =>
      cases h
      exact ⟨rfl, Value.label?_error hl⟩

mutual

/-- Only what cannot be written has no texts for keys. -/
theorem canonicalKeys?_error (v : Value) (h : canonicalKeys? v = .error e) :
    e = .numberTooLong ∧ v.isWritable = false := by
  cases v with
  | list vs =>
    rw [canonicalKeys?] at h
    exact canonicalList?_error vs (map_error h)
  | map es =>
    rw [canonicalKeys?] at h
    exact canonicalEntries?_error es (map_error h)
  | null | bool | int | float | decimal | text | bytes | uuid | date | time | tag | tuple | set | other =>
    unfold canonicalKeys? at h
    cases h
termination_by structural v

theorem canonicalList?_error (vs : List Value) (h : canonicalList? vs = .error e) :
    e = .numberTooLong ∧ (Value.list vs).isWritable = false := by
  cases vs with
  | nil => cases h
  | cons v vs =>
    rw [canonicalList?] at h
    rcases bind_error h with h | ⟨_, -, h⟩
    · exact (canonicalKeys?_error v h).imp_right (Value.isWritable_mono (Nat.le_max_left _ _))
    · rcases bind_error h with h | ⟨_, -, h⟩
      · exact (canonicalList?_error vs h).imp_right (Value.isWritable_mono (Nat.le_max_right _ _))
      · cases h
termination_by structural vs

theorem canonicalEntries?_error (es : List (Value × Value)) (h : canonicalEntries? es = .error e) :
    e = .numberTooLong ∧ (Value.map es).isWritable = false := by
  cases es with
  | nil => cases h
  | cons p es =>
    obtain ⟨k, v⟩ := p
    have key : k.largestInt ≤ (Value.map ((k, v) :: es)).largestInt :=
      Nat.le_trans (Nat.le_max_left _ _) (Nat.le_max_left _ _)
    have value : v.largestInt ≤ (Value.map ((k, v) :: es)).largestInt :=
      Nat.le_trans (Nat.le_max_right _ _) (Nat.le_max_left _ _)
    rw [canonicalEntries?] at h
    rcases bind_error h with h | ⟨_, -, h⟩
    · exact (keyName?_error h).imp_right (Value.isWritable_mono key)
    · rcases bind_error h with h | ⟨_, -, h⟩
      · exact (canonicalKeys?_error v h).imp_right (Value.isWritable_mono value)
      · rcases bind_error h with h | ⟨_, -, h⟩
        · exact (canonicalEntries?_error es h).imp_right (Value.isWritable_mono (Nat.le_max_right _ _))
        · cases h
termination_by structural es

end

/-- An entry with its key as a text and its value with texts for keys. -/
def renamed? (p : Value × Value) : Except Json.Error (Value × Value) := do
  let s ← keyName? p.1
  let v ← canonicalKeys? p.2
  pure (.text s, v)

theorem canonicalEntries?_cons (p : Value × Value) (es : Entries) :
    canonicalEntries? (p :: es) = renamed? p >>= fun q => canonicalEntries? es >>= fun qs => pure (q :: qs) := by
  rw [canonicalEntries?, renamed?, bind_assoc]
  simp only [bind_assoc, pure_bind]

theorem renamed?_self (p : Value × Value) : Agree (· = ·) (renamed? p) (renamed? p) := by
  apply Agree.self
  intro e h
  rcases bind_error h with h | ⟨_, -, h⟩
  · exact (keyName?_error h).1
  · rcases bind_error h with h | ⟨_, -, h⟩
    · exact (canonicalKeys?_error _ h).1
    · cases h

/-- Entries in another order are so with texts for keys. -/
theorem canonicalEntries?_perm (h : es.Perm fs) : Agree List.Perm (canonicalEntries? es) (canonicalEntries? fs) := by
  induction h with
  | nil => exact .ok .nil
  | cons p h ih =>
    rw [canonicalEntries?_cons, canonicalEntries?_cons]
    apply (renamed?_self p).bind
    rintro q _ rfl
    apply ih.bind
    intro ps qs hp
    exact .ok (hp.cons q)
  | swap p q es =>
    simp only [canonicalEntries?_cons, bind_assoc, pure_bind]
    apply (renamed?_self q).swap (renamed?_self p)
    intro q' p'
    have rest : Agree (· = ·) (canonicalEntries? es) (canonicalEntries? es) :=
      .self fun e he => (canonicalEntries?_error es he).1
    apply rest.bind
    rintro ps _ rfl
    exact .ok (.swap p' q' ps)
  | trans _ _ ih ih' =>
    rcases ih.trans ih' with ⟨ps, rs, hps, hrs, qs, hp, hq⟩ | h
    · exact .inl ⟨ps, rs, hps, hrs, hp.trans hq⟩
    · exact .inr h

/-- Keys whose names differ from each other become different texts. -/
theorem nodup_of_canonicalEntries? (h : canonicalEntries? es = .ok ps)
    (apart : es.Pairwise fun p q => NamesApart p.1 q.1) : (ps.map (·.1)).Nodup := by
  induction es generalizing ps with
  | nil =>
    cases h
    exact List.nodup_nil
  | cons e es ih =>
    obtain ⟨k, v⟩ := e
    obtain ⟨first, apart⟩ := List.pairwise_cons.mp apart
    obtain ⟨q, qs, rfl, ⟨s, w, hs, -, rfl⟩, hqs⟩ := canonicalEntries?_cons_ok h
    refine List.nodup_cons.mpr ⟨?_, ih hqs apart⟩
    intro hm
    obtain ⟨q, hq, hk⟩ := List.mem_map.mp hm
    obtain ⟨p, hp, t, u, ht, -, rfl⟩ := exists_renamed hqs hq
    exact first p hp s hs (Value.text.inj hk ▸ ht)

/-! ## Documents with texts for keys -/

/-- Two values that are the same up to the order of entries, with texts for keys and no number larger than `n`. -/
structure Rekeyed (n : Nat) (v w : Value) : Prop where
  texts : v.HasOwnTexts
  same : v.Same w
  small : v.largestInt ≤ n

mutual

/-- Documents that are the same up to the order of entries are so with texts for keys. -/
theorem canonicalKeys?_agree (v : Value) (hv : v.IsDocument) {w : Value} (h : v.Same w) :
    Agree (Rekeyed v.largestInt) (canonicalKeys? v) (canonicalKeys? w) := by
  cases v with
  | list vs =>
    obtain ⟨ws, rfl, h⟩ := Value.same_list h
    rw [canonicalKeys?, canonicalKeys?]
    exact (canonicalList?_agree vs hv h).map fun _ _ hp => ⟨hp.1, hp.2.1, hp.2.2⟩
  | map es =>
    obtain ⟨fs, gs, rfl, perm, h⟩ := Value.same_map h
    obtain ⟨apart, hv⟩ := hv
    rw [canonicalKeys?, canonicalKeys?]
    rcases (canonicalEntries?_agree es hv h).trans (canonicalEntries?_perm perm) with
      ⟨ps, qs, hps, hqs, rs, ⟨texts, same, small⟩, turned⟩ | ⟨he, hf⟩
    · have distinct := nodup_of_canonicalEntries? hps apart
      have distinct' : (qs.map (·.1)).Nodup := by
        rw [← (turned.map (·.1)).nodup_iff, ← same.keys_eq]
        exact distinct
      have kept := Entries.ofPairs_of_nodup (areTexts_of_canonicalEntries? hps) distinct
      have kept' := Entries.ofPairs_of_nodup (areTexts_of_canonicalEntries? hqs) distinct'
      rw [hps, hqs]
      apply Agree.ok
      rw [Value.ofPairs, Value.ofPairs, kept, kept']
      exact ⟨⟨⟨areTexts_of_canonicalEntries? hps, distinct⟩, texts⟩, ⟨rs, turned, same⟩, small⟩
    · rw [he, hf]
      exact .inr ⟨rfl, rfl⟩
  | tuple | set => exact hv.elim
  | null | bool | int | float | decimal | text | bytes | uuid | date | time | tag | other =>
    have same : _ = w := h
    subst same
    unfold canonicalKeys?
    exact .ok ⟨trivial, rfl, Nat.le_refl _⟩
termination_by structural v

theorem canonicalList?_agree (vs : List Value) (hv : AreDocuments vs) {ws : List Value} (h : AllSame vs ws) :
    Agree (fun us xs => Value.HaveOwnTexts us ∧ AllSame us xs ∧ largestInts us ≤ largestInts vs)
      (canonicalList? vs) (canonicalList? ws) := by
  cases vs with
  | nil =>
    cases ws with
    | nil => exact .ok ⟨trivial, trivial, Nat.le_refl _⟩
    | cons => exact h.elim
  | cons v vs =>
    cases ws with
    | nil => exact h.elim
    | cons w ws =>
      rw [canonicalList?, canonicalList?]
      apply (canonicalKeys?_agree v hv.1 h.1).bind
      intro v' w' first
      apply (canonicalList?_agree vs hv.2 h.2).bind
      rintro us xs ⟨texts, same, small⟩
      have small' := first.small
      refine .ok ⟨⟨first.texts, texts⟩, ⟨first.same, same⟩, ?_⟩
      simp only [largestInts]
      omega
termination_by structural vs

theorem canonicalEntries?_agree (es : List (Value × Value)) (he : HaveDocuments es) {gs : List (Value × Value)}
    (h : EntriesSame es gs) :
    Agree (fun ps rs => Value.EntriesHaveOwnTexts ps ∧ EntriesSame ps rs ∧ largestEntries ps ≤ largestEntries es)
      (canonicalEntries? es) (canonicalEntries? gs) := by
  cases es with
  | nil =>
    cases gs with
    | nil => exact .ok ⟨trivial, trivial, Nat.le_refl _⟩
    | cons => exact h.elim
  | cons p es =>
    obtain ⟨k, v⟩ := p
    cases gs with
    | nil => exact h.elim
    | cons g gs =>
      obtain ⟨k', w⟩ := g
      obtain ⟨rfl, hv, hes⟩ := h
      have name : Agree (· = ·) (keyName? k) (keyName? k) := .self fun e he => (keyName?_error he).1
      rw [canonicalEntries?, canonicalEntries?]
      apply name.bind
      rintro s _ rfl
      apply (canonicalKeys?_agree v he.1 hv).bind
      intro v' w' first
      apply (canonicalEntries?_agree es he.2 hes).bind
      rintro ps rs ⟨texts, same, small⟩
      have small' := first.small
      refine .ok ⟨⟨first.texts, texts⟩, ⟨rfl, first.same, same⟩, ?_⟩
      simp only [largestEntries, largestInt]
      omega
termination_by structural es

end

end Workflow

/-! ## Their JSON -/

namespace Json

variable {v w : Value} {e : Error}

theorem members?_error {es : List (Value × Except Error Json)} (ht : AreTexts es) (h : members? es = .error e) :
    ∃ p ∈ es, p.2 = .error e := by
  induction es with
  | nil => cases h
  | cons p es ih =>
    obtain ⟨k, x⟩ := p
    obtain ⟨s, rfl⟩ := ht (k, x) List.mem_cons_self
    rw [members?] at h
    rcases bind_error h with h | ⟨_, -, h⟩
    · cases h
    · rcases bind_error h with h | ⟨_, -, h⟩
      · exact ⟨_, List.mem_cons_self, h⟩
      · rcases bind_error h with h | ⟨_, -, h⟩
        · obtain ⟨p, hp, he⟩ := ih (ht.mono fun p hp => List.mem_cons_of_mem _ hp) h
          exact ⟨p, List.mem_cons_of_mem _ hp, he⟩
        · cases h

theorem sortedMembers?_error {es : List (Value × Except Error Json)} (ht : AreTexts es)
    (h : sortedMembers? true es = .error e) : ∃ p ∈ es, p.2 = .error e := by
  obtain ⟨out, ho, -⟩ := sortKeys?_texts ht
  have perm := sortKeys?_perm ho
  rw [sortedMembers?, if_pos rfl, ho] at h
  obtain ⟨p, hp, he⟩ := members?_error (ht.mono fun p hp => perm.mem_iff.mp hp) h
  exact ⟨p, perm.mem_iff.mp hp, he⟩

theorem document_leaf : document.leaf = labelLeaf := by
  rw [document]

theorem document_listsSets : document.listsSets = false := rfl

theorem labelLeaf_error (h : labelLeaf v = .error e) : e = .numberTooLong ∧ v.isWritable = false := by
  unfold labelLeaf at h
  split at h
  · cases h
  · next hl =>
    cases h
    exact ⟨rfl, Value.label?_error hl⟩

mutual

/-- Under texts for keys only what cannot be written has no JSON. -/
theorem ofValue_document_error (v : Value) (hv : v.HasOwnTexts) (h : ofValue document v = .error e) :
    e = .numberTooLong ∧ v.isWritable = false := by
  cases v with
  | int n =>
    rw [ofValue] at h
    split at h
    · cases h
    · next hn =>
      cases h
      rw [Value.isWritable_eq_false, Value.largestInt]
      exact ⟨rfl, Nat.not_lt.mp hn⟩
  | list vs =>
    rw [ofValue] at h
    exact ofValues_document_error vs hv (map_error h)
  | map es =>
    rw [ofValue] at h
    have texts : AreTexts (ofEntries document es) := areTexts_ofEntries hv.1.1
    obtain ⟨p, hp, he⟩ := sortedMembers?_error texts (map_error h)
    exact ofEntries_document_error es hv.2 p hp he
  | tuple => exact hv.elim
  | null | bool | float | text | tag =>
    unfold ofValue at h
    cases h
  | set =>
    rw [ofValue, document_listsSets, if_neg Bool.false_ne_true, document_leaf] at h
    exact labelLeaf_error h
  | decimal | bytes | uuid | date | time | other =>
    unfold ofValue at h
    rw [document_leaf] at h
    exact labelLeaf_error h
termination_by structural v

theorem ofValues_document_error (vs : List Value) (hv : Value.HaveOwnTexts vs) (h : ofValues document vs = .error e) :
    e = .numberTooLong ∧ (Value.list vs).isWritable = false := by
  cases vs with
  | nil => cases h
  | cons v vs =>
    rw [ofValues] at h
    rcases bind_error h with h | ⟨_, -, h⟩
    · exact (ofValue_document_error v hv.1 h).imp_right (Value.isWritable_mono (Nat.le_max_left _ _))
    · rcases bind_error h with h | ⟨_, -, h⟩
      · exact (ofValues_document_error vs hv.2 h).imp_right (Value.isWritable_mono (Nat.le_max_right _ _))
      · cases h
termination_by structural vs

theorem ofEntries_document_error (es : List (Value × Value)) (he : Value.EntriesHaveOwnTexts es) :
    ∀ p ∈ ofEntries document es, p.2 = .error e → e = .numberTooLong ∧ (Value.map es).isWritable = false := by
  cases es with
  | nil => exact List.forall_mem_nil _
  | cons q es =>
    obtain ⟨k, v⟩ := q
    rw [ofEntries, List.forall_mem_cons]
    constructor
    · intro h
      have value : v.largestInt ≤ (Value.map ((k, v) :: es)).largestInt :=
        Nat.le_trans (Nat.le_max_right _ _) (Nat.le_max_left _ _)
      exact (ofValue_document_error v he.1 h).imp_right (Value.isWritable_mono value)
    · intro p hp h
      exact (ofEntries_document_error es he.2 p hp h).imp_right (Value.isWritable_mono (Nat.le_max_right _ _))
termination_by structural es

end

end Json

/-- Documents that are the same up to the order of entries have the same canonical JSON, unless a number is too long. -/
theorem canonicalJson?_same {v w : Value} (hv : v.IsDocument) (h : v.Same w) :
    canonicalJson? w = canonicalJson? v ∧
      ∀ e, canonicalJson? v = .error e → e = .numberTooLong ∧ v.isWritable = false := by
  rcases Workflow.canonicalKeys?_agree v hv h with ⟨v', w', hv', hw', rekeyed⟩ | ⟨he, he'⟩
  · rw [canonicalJson?_of_keys hv', canonicalJson?_of_keys hw']
    refine ⟨(Json.ofValue_same rfl v' rekeyed.texts rekeyed.same).symm, ?_⟩
    intro e h
    exact (Json.ofValue_document_error v' rekeyed.texts h).imp_right (Value.isWritable_mono rekeyed.small)
  · unfold canonicalJson?
    rw [he, he']
    refine ⟨rfl, ?_⟩
    rintro e ⟨⟩
    exact ⟨rfl, (Workflow.canonicalKeys?_error v he).2⟩

end LoanLedger
