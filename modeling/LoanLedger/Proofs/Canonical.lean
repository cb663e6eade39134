import LoanLedger.Proofs.JsonInjective
import LoanLedger.Proofs.Writing

/-!
# The JSON of a value tells the value

* `Value.IsProper v` : null, truth values, whole numbers, binary fractions that are numbers of the format, texts,
  lists of such and maps of such under text keys; `Value.IsExact v` : so without binary fractions;
* `Value.Same v w` : the values are the same up to the order of the entries of maps, at every depth;
* `Json.perm_of_ofValue_map` : the members of the JSON of a map are its entries, in whatever order;
* `Json.isProper_of_ofValue` : where each binary fraction is a number of the format, so it is in the JSON;
* `Json.same_of_ofValue` : proper values with the same JSON are the same.
-/

namespace LoanLedger

namespace Value

mutual

/-- A value that has JSON of its own, whole numbers only. -/
def IsExact : Value → Prop
  | null | bool _ | int _ | text _ => True
  | list vs => AreExact vs
  | map es => HaveExact es
  | _ => False

def AreExact : List Value → Prop
  | [] => True
  | v :: vs => IsExact v ∧ AreExact vs

def HaveExact : List (Value × Value) → Prop
  | [] => True
  | (k, v) :: es => (∃ s, k = text s) ∧ IsExact v ∧ HaveExact es

end

mutual

/-- A value that has JSON of its own, each binary fraction in it a number of the format. -/
def IsProper : Value → Prop
  | float x => x.IsNumber
  | null | bool _ | int _ | text _ => True
  | list vs => AreProper vs
  | map es => HaveProper es
  | _ => False

def AreProper : List Value → Prop
  | [] => True
  | v :: vs => IsProper v ∧ AreProper vs

def HaveProper : List (Value × Value) → Prop
  | [] => True
  | (k, v) :: es => (∃ s, k = text s) ∧ IsProper v ∧ HaveProper es

end

mutual

/-- Each binary fraction in lists, tuples and maps at any depth is a number of the format. -/
def HasNumbers : Value → Prop
  | float x => x.IsNumber
  | list vs | tuple vs => HaveNumbers vs
  | map es => EntriesHaveNumbers es
  | _ => True

def HaveNumbers : List Value → Prop
  | [] => True
  | v :: vs => HasNumbers v ∧ HaveNumbers vs

def EntriesHaveNumbers : List (Value × Value) → Prop
  | [] => True
  | (_, v) :: es => HasNumbers v ∧ EntriesHaveNumbers es

end

mutual

/-- The values are the same up to the order of the entries of maps. -/
def Same : Value → Value → Prop
  | list vs, list ws => AllSame vs ws
  | map es, map fs => ∃ gs, gs.Perm fs ∧ EntriesSame es gs
  | v, w => v = w

/-- The values are so in turn. -/
def AllSame : List Value → List Value → Prop
  | [], [] => True
  | v :: vs, w :: ws => Same v w ∧ AllSame vs ws
  | _, _ => False

/-- The keys are equal and the values are so, in turn. -/
def EntriesSame : List (Value × Value) → List (Value × Value) → Prop
  | [], [] => True
  | (k, v) :: es, (k', v') :: es' => k = k' ∧ Same v v' ∧ EntriesSame es es'
  | _, _ => False

end

theorem haveProper_iff {es : List (Value × Value)} :
    HaveProper es ↔ ∀ p ∈ es, (∃ s, p.1 = text s) ∧ p.2.IsProper := by
  induction es with
  | nil => simp [HaveProper]
  | cons e es ih =>
    obtain ⟨k, v⟩ := e
    simp [HaveProper, ih, and_assoc]

theorem entriesHaveNumbers_iff {es : List (Value × Value)} :
    EntriesHaveNumbers es ↔ ∀ p ∈ es, p.2.HasNumbers := by
  induction es with
  | nil => simp [EntriesHaveNumbers]
  | cons e es ih =>
    obtain ⟨k, v⟩ := e
    simp [EntriesHaveNumbers, ih]

mutual

/-- Where no binary fraction is, each is a number of the format. -/
theorem IsExact.isProper (v : Value) (h : v.IsExact) : v.IsProper := by
  cases v with
  | null | bool | int | text => trivial
  | list vs => exact AreExact.areProper vs h
  | map es => exact HaveExact.haveProper es h
  | float | decimal | bytes | uuid | date | time | tag | tuple | set | other => exact h.elim
termination_by structural v

theorem AreExact.areProper (vs : List Value) (h : AreExact vs) : AreProper vs := by
  cases vs with
  | nil => trivial
  | cons v vs => exact ⟨IsExact.isProper v h.1, AreExact.areProper vs h.2⟩
termination_by structural vs

theorem HaveExact.haveProper (es : List (Value × Value)) (h : HaveExact es) : HaveProper es := by
  cases es with
  | nil => trivial
  | cons e es =>
    obtain ⟨k, v⟩ := e
    exact ⟨h.1, IsExact.isProper v h.2.1, HaveExact.haveProper es h.2.2⟩
termination_by structural es

end

mutual

theorem IsProper.hasNumbers (v : Value) (h : v.IsProper) : v.HasNumbers := by
  cases v with
  | null | bool | int | text => trivial
  | float => exact h
  | list vs => exact AreProper.haveNumbers vs h
  | map es => exact HaveProper.haveNumbers es h
  | decimal | bytes | uuid | date | time | tag | tuple | set | other => exact h.elim
termination_by structural v

theorem AreProper.haveNumbers (vs : List Value) (h : AreProper vs) : HaveNumbers vs := by
  cases vs with
  | nil => trivial
  | cons v vs => exact ⟨IsProper.hasNumbers v h.1, AreProper.haveNumbers vs h.2⟩
termination_by structural vs

theorem HaveProper.haveNumbers (es : List (Value × Value)) (h : HaveProper es) : EntriesHaveNumbers es := by
  cases es with
  | nil => trivial
  | cons e es =>
    obtain ⟨k, v⟩ := e
    exact ⟨IsProper.hasNumbers v h.2.1, HaveProper.haveNumbers es h.2.2⟩
termination_by structural es

end

end Value

/-! ## Lists of keys and values -/

section Pairs

variable {α β γ : Type}

/-- What is a reordering of images is the image of a reordering. -/
theorem exists_perm_map {f : α → β} {l m : List β} (h : l.Perm m) :
    ∀ {ys : List α}, m = ys.map f → ∃ xs : List α, xs.Perm ys ∧ l = xs.map f := by
  induction h with
  | nil => intro ys hy; exact ⟨ys, .refl _, hy⟩
  | cons b _ ih =>
    intro ys hy
    obtain ⟨a, as, rfl, rfl, hm⟩ := List.map_eq_cons_iff.mp hy.symm
    obtain ⟨xs, hx, hl⟩ := ih hm.symm
    exact ⟨a :: xs, hx.cons a, by rw [hl, List.map_cons]⟩
  | swap b c l =>
    intro ys hy
    obtain ⟨a, as, rfl, rfl, hm⟩ := List.map_eq_cons_iff.mp hy.symm
    obtain ⟨a', as, rfl, rfl, rfl⟩ := List.map_eq_cons_iff.mp hm
    exact ⟨a' :: a :: as, .swap a a' as, rfl⟩
  | trans _ _ ih₁ ih₂ =>
    intro ys hy
    obtain ⟨xs, hx, hm⟩ := ih₂ hy
    obtain ⟨ws, hw, hl⟩ := ih₁ hm
    exact ⟨ws, hw.trans hx, hl⟩

/-- Pairs under the same keys in the same order, no key twice, are reorderings of each other only when they
are equal. -/
theorem eq_of_perm_of_keys {l m : List (α × β)} (h : l.Perm m) (hk : l.map (·.1) = m.map (·.1))
    (hn : (l.map (·.1)).Nodup) : l = m := by
  induction l generalizing m with
  | nil => exact (List.nil_perm.mp h).symm
  | cons p l ih =>
    obtain ⟨k, b⟩ := p
    cases m with
    | nil => cases hk
    | cons q m =>
      obtain ⟨k', b'⟩ := q
      obtain ⟨hkey, htail⟩ := List.cons.inj hk
      obtain ⟨hnew, hn⟩ := List.nodup_cons.mp hn
      have same : (k, b) = (k', b') := by
        rcases List.mem_cons.mp (h.mem_iff.mp List.mem_cons_self) with h | h
        · exact h
        · have hmem : k ∈ m.map (·.1) := List.mem_map_of_mem h
          exact absurd (htail ▸ hmem) hnew
      rw [same] at h ⊢
      rw [ih ((List.perm_cons _).mp h) htail hn]

end Pairs

namespace Json

open JsonOf (AreProper haveProper_iff)

variable {style : Style} {es : List (Value × Value)} {j : Json}

/-! ## Members -/

theorem ofEntries_eq_map (es : List (Value × Value)) :
    ofEntries style es = es.map fun p => (p.1, ofValue style p.2) := by
  induction es with
  | nil => rw [ofEntries]; rfl
  | cons e es ih => rw [ofEntries, ih]; rfl

theorem areTexts_ofEntries (h : AreTexts es) : AreTexts (ofEntries style es) := by
  intro p hp
  obtain ⟨q, hq, rfl⟩ := mem_ofEntries hp
  exact h q hq

def entriesOf (ms : List (String × Json)) : List (Value × Except Error Json) :=
  ms.map fun m => (.text m.1, .ok m.2)

theorem eq_entriesOf_of_members? {ps : List (Value × Except Error Json)} {ms : List (String × Json)}
    (ht : AreTexts ps) (h : members? ps = .ok ms) : ps = entriesOf ms := by
  induction ps generalizing ms with
  | nil =>
    cases h
    rfl
  | cons p ps ih =>
    obtain ⟨k, v⟩ := p
    obtain ⟨s, rfl⟩ := ht (k, v) List.mem_cons_self
    obtain ⟨name, j, ms, rfl, hk, rfl, hm⟩ := members?_cons_ok h
    cases hk
    rw [ih (ht.mono fun p hp => List.mem_cons_of_mem _ hp) hm]
    rfl

/-- Sorted or not, the members are those of a reordering of the entries. -/
theorem sortedMembers?_ok {ps : List (Value × Except Error Json)} {ms : List (String × Json)} {isSorted : Bool}
    (h : sortedMembers? isSorted ps = .ok ms) : ∃ qs, qs.Perm ps ∧ members? qs = .ok ms := by
  unfold sortedMembers? at h
  split at h
  · split at h
    · next qs hs => exact ⟨qs, sortKeys?_perm hs, h⟩
    · cases h
  · exact ⟨ps, .refl ps, h⟩

theorem perm_of_ofValue_map (ht : AreTexts es) (h : ofValue style (.map es) = .ok j) :
    ∃ ms, j = .object ms ∧ (entriesOf ms).Perm (ofEntries style es) := by
  have texts : AreTexts (ofEntries style es) := areTexts_ofEntries ht
  obtain ⟨ms, hm, rfl⟩ := ofValue_map_ok h
  obtain ⟨ps, hp, hm⟩ := sortedMembers?_ok hm
  refine ⟨ms, rfl, ?_⟩
  rw [← eq_entriesOf_of_members? (texts.mono fun p => hp.mem_iff.mp) hm]
  exact hp

/-- The JSON of each value of a map is the value of one of its members. -/
theorem exists_mem_of_perm {ms : List (String × Json)} (hp : (entriesOf ms).Perm (ofEntries style es))
    {p : Value × Value} (h : p ∈ es) : ∃ m ∈ ms, p.1 = .text m.1 ∧ ofValue style p.2 = .ok m.2 := by
  have hm : (p.1, ofValue style p.2) ∈ ofEntries style es := by
    rw [ofEntries_eq_map]
    exact List.mem_map_of_mem h
  obtain ⟨m, hm, he⟩ := List.mem_map.mp (hp.mem_iff.mpr hm)
  obtain ⟨hk, hv⟩ := Prod.mk.inj he
  exact ⟨m, hm, hk.symm, hv.symm⟩

theorem exists_entry_of_perm {ms : List (String × Json)} (hp : (entriesOf ms).Perm (ofEntries style es))
    {m : String × Json} (h : m ∈ ms) : ∃ p ∈ es, p.1 = .text m.1 ∧ ofValue style p.2 = .ok m.2 := by
  obtain ⟨p, hmem, he⟩ := mem_ofEntries (hp.mem_iff.mp (List.mem_map_of_mem h))
  obtain ⟨hk, hv⟩ := Prod.mk.inj he
  exact ⟨p, hmem, hk.symm, hv.symm⟩

/-! ## Numbers -/

/-- What JSON does not have becomes a text, and a set is not listed. -/
structure Style.WritesTexts (style : Style) : Prop where
  leaf : ∀ v j, style.leaf v = .ok j → ∃ s, j = .text s
  sets : style.listsSets = false

theorem labelLeaf_text {v : Value} (h : labelLeaf v = .ok j) : ∃ s, j = .text s := by
  unfold labelLeaf at h
  split at h <;> cases h
  exact ⟨_, rfl⟩

theorem canonical_writesTexts : canonical.WritesTexts where
  leaf v j h := by
    cases v with
    | decimal d =>
      unfold canonical at h
      dsimp only at h
      split at h <;> cases h
      exact ⟨_, rfl⟩
    | time | date | uuid | bytes => cases h; exact ⟨_, rfl⟩
    | null | bool | int | float | text | tag | list | tuple | set | map | other => cases h
  sets := rfl

theorem document_writesTexts : document.WritesTexts where
  leaf v j h := by
    unfold document at h
    dsimp only at h
    exact labelLeaf_text h
  sets := rfl

theorem storage_writesTexts : storage.WritesTexts where
  leaf _ _ h := by cases h
  sets := rfl

/-- The values of members come from entries. -/
theorem exists_of_mem_members? {ps : List (Value × Except Error Json)} {ms : List (String × Json)}
    (h : members? ps = .ok ms) {m : String × Json} (hm : m ∈ ms) : ∃ p ∈ ps, p.2 = .ok m.2 := by
  induction ps generalizing ms with
  | nil => cases h; cases hm
  | cons p ps ih =>
    obtain ⟨k, v⟩ := p
    obtain ⟨name, j, ms, rfl, -, rfl, hs⟩ := members?_cons_ok h
    rcases List.mem_cons.mp hm with rfl | hm
    · exact ⟨_, List.mem_cons_self, rfl⟩
    · obtain ⟨p, hp, he⟩ := ih hs hm
      exact ⟨p, List.mem_cons_of_mem _ hp, he⟩

theorem exists_of_mem_sortedMembers? {ps : List (Value × Except Error Json)} {ms : List (String × Json)}
    {isSorted : Bool} (h : sortedMembers? isSorted ps = .ok ms) {m : String × Json}
    (hm : m ∈ ms) : ∃ p ∈ ps, p.2 = .ok m.2 := by
  obtain ⟨qs, hqs, h⟩ := sortedMembers?_ok h
  obtain ⟨p, hp, he⟩ := exists_of_mem_members? h hm
  exact ⟨p, hqs.mem_iff.mp hp, he⟩

mutual

/-- Where each binary fraction is a number of the format, so it is in the JSON. -/
theorem isProper_of_ofValue (hs : style.WritesTexts) (v : Value) (hv : v.HasNumbers) {j : Json}
    (h : ofValue style v = .ok j) : j.IsProper := by
  have texts {w : Value} (hw : style.leaf w = .ok j) : j.IsProper := by
    obtain ⟨s, rfl⟩ := hs.leaf w j hw
    trivial
  cases v with
  | null | bool | text | tag => cases h; trivial
  | int n => rw [ofValue_int h]; trivial
  | float x => cases h; exact hv
  | list vs | tuple vs =>
    rw [ofValue] at h
    obtain ⟨js, hj, rfl⟩ := map_ok h
    exact areProper_of_ofValues hs vs hv hj
  | set vs =>
    rw [ofValue, hs.sets] at h
    exact texts h
  | map es =>
    obtain ⟨ms, hm, rfl⟩ := ofValue_map_ok h
    refine haveProper_iff.mpr fun m hmem => ?_
    obtain ⟨p, hp, he⟩ := exists_of_mem_sortedMembers? hm hmem
    obtain ⟨q, hq, rfl⟩ := mem_ofEntries hp
    exact isProper_of_mem hs es hv q hq he
  | decimal | bytes | uuid | date | time | other => exact texts h
termination_by structural v

theorem areProper_of_ofValues (hs : style.WritesTexts) (vs : List Value) (hv : Value.HaveNumbers vs) {js : List Json}
    (h : ofValues style vs = .ok js) : AreProper js := by
  cases vs with
  | nil => cases h; trivial
  | cons v vs =>
    obtain ⟨j, ks, rfl, hj, hk⟩ := ofValues_cons_ok h
    exact ⟨isProper_of_ofValue hs v hv.1 hj, areProper_of_ofValues hs vs hv.2 hk⟩
termination_by structural vs

theorem isProper_of_mem (hs : style.WritesTexts) (es : List (Value × Value)) (he : Value.EntriesHaveNumbers es)
    (p : Value × Value) (h : p ∈ es) {j : Json} (hj : ofValue style p.2 = .ok j) : j.IsProper := by
  cases es with
  | nil => cases h
  | cons e es =>
    obtain ⟨k, v⟩ := e
    rcases List.mem_cons.mp h with rfl | h
    · exact isProper_of_ofValue hs v he.1 hj
    · exact isProper_of_mem hs es he.2 p h hj
termination_by structural es

end

/-! ## Proper values -/

/-- The forms of the JSON of a proper value. -/
inductive Writes (style : Style) : Value → Json → Prop where
  | null : Writes style .null .null
  | bool (b : Bool) : Writes style (.bool b) (.bool b)
  | int (n : Int) : Writes style (.int n) (.int n)
  | float (x : Binary64) : Writes style (.float x) (.float x)
  | text (s : String) : Writes style (.text s) (.text s)
  | list {vs : List Value} {js : List Json} : Value.AreProper vs → ofValues style vs = .ok js →
    Writes style (.list vs) (.list js)
  | map {es : List (Value × Value)} {ms : List (String × Json)} : Value.HaveProper es →
    (entriesOf ms).Perm (ofEntries style es) → Writes style (.map es) (.object ms)

theorem writes_of_ofValue {v : Value} (hv : v.IsProper) (h : ofValue style v = .ok j) : Writes style v j := by
  cases v with
  | null => cases h; exact .null
  | bool b => cases h; exact .bool b
  | int n => rw [ofValue_int h]; exact .int n
  | float x => cases h; exact .float x
  | text s => cases h; exact .text s
  | list vs =>
    obtain ⟨js, hj, rfl⟩ := ofValue_list_ok h
    exact .list hv hj
  | map es =>
    obtain ⟨ms, rfl, hp⟩ := perm_of_ofValue_map (fun p hp => (Value.haveProper_iff.mp hv p hp).1) h
    exact .map hv hp
  | decimal | bytes | uuid | date | time | tag | tuple | set | other => exact hv.elim

mutual

/-- Proper values with the same JSON are the same. -/
theorem same_of_ofValue (v : Value) (hv : v.IsProper) {w : Value} (hw : w.IsProper) {j : Json}
    (h : ofValue style v = .ok j) (h' : ofValue style w = .ok j) : v.Same w := by
  have hj := writes_of_ofValue hv h
  have hj' := writes_of_ofValue hw h'
  cases v with
  | null | bool | int | float | text =>
    cases hj
    cases hj'
    rfl
  | list vs =>
    cases hj with
    | list _ hvs =>
      cases hj' with
      | list _ hws => exact allSame_of_ofValues vs hv hw hvs hws
  | map es =>
    cases hj with
    | map _ hp =>
      cases hj' with
      | @map fs _ _ hp' =>
        have perm : (ofEntries style es).Perm (fs.map fun p => (p.1, ofValue style p.2)) := by
          rw [← ofEntries_eq_map]
          exact hp.symm.trans hp'
        obtain ⟨gs, hg, he⟩ := exists_perm_map perm rfl
        refine ⟨gs, hg, entriesSame_of_ofEntries es hv (fun p hm => ?_) (ofEntries_eq_map gs ▸ he) fun p hm => ?_⟩
        · exact (Value.haveProper_iff.mp hw p (hg.mem_iff.mp hm)).2
        · obtain ⟨m, -, -, hj⟩ := exists_mem_of_perm hp hm
          exact ⟨m.2, hj⟩
  | decimal | bytes | uuid | date | time | tag | tuple | set | other => exact hv.elim
termination_by structural v

theorem allSame_of_ofValues (vs : List Value) (hv : Value.AreProper vs) {ws : List Value} (hw : Value.AreProper ws)
    {js : List Json} (h : ofValues style vs = .ok js) (h' : ofValues style ws = .ok js) : Value.AllSame vs ws := by
  cases vs with
  | nil =>
    cases h
    cases ws with
    | nil => trivial
    | cons w ws =>
      obtain ⟨_, _, he, -⟩ := ofValues_cons_ok h'
      cases he
  | cons v vs =>
    obtain ⟨j, ks, rfl, hj, hk⟩ := ofValues_cons_ok h
    cases ws with
    | nil => cases h'
    | cons w ws =>
      obtain ⟨_, _, he, hj', hk'⟩ := ofValues_cons_ok h'
      cases he
      exact ⟨same_of_ofValue v hv.1 hw.1 hj hj', allSame_of_ofValues vs hv.2 hw.2 hk hk'⟩
termination_by structural vs

theorem entriesSame_of_ofEntries (es : List (Value × Value)) (he : Value.HaveProper es)
    {gs : List (Value × Value)} (hg : ∀ p ∈ gs, p.2.IsProper) (h : ofEntries style es = ofEntries style gs)
    (hok : ∀ p ∈ es, ∃ j, ofValue style p.2 = .ok j) : Value.EntriesSame es gs := by
  cases es with
  | nil =>
    cases gs with
    | nil => trivial
    | cons g gs => rw [ofEntries, ofEntries] at h; cases h
  | cons e es =>
    obtain ⟨k, v⟩ := e
    cases gs with
    | nil => rw [ofEntries, ofEntries] at h; cases h
    | cons g gs =>
      obtain ⟨k', w⟩ := g
      rw [ofEntries, ofEntries] at h
      obtain ⟨hhead, htail⟩ := List.cons.inj h
      obtain ⟨hk, hvw⟩ := Prod.mk.inj hhead
      obtain ⟨j, hj⟩ := hok (k, v) List.mem_cons_self
      have first := same_of_ofValue v he.2.1 (hg (k', w) List.mem_cons_self) hj (hvw ▸ hj)
      have others := entriesSame_of_ofEntries es he.2.2 (fun p hp => hg p (List.mem_cons_of_mem _ hp)) htail
        fun p hp => hok p (List.mem_cons_of_mem _ hp)
      exact ⟨hk, first, others⟩
termination_by structural es

end

end Json

end LoanLedger
