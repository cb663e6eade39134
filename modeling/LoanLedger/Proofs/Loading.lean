import LoanLedger.Proofs.Binary64.Format
import LoanLedger.Proofs.Members
import LoanLedger.Yaml.Reader

/-!
# What is read is a loaded document

* `Entries.haveLoaded_ofPairs` : a map has no two keys that are the same;
* `scalarValue_isLoadedKey` : scalars can be keys of loaded documents;
* `Node.isLoaded_of_build` : every value of a node is a loaded one;
* `isLoaded_of_read?` : so every document that is read is loaded.
-/

namespace LoanLedger

/-! ## Maps -/

theorem Value.IsLoadedKey.isLoaded {v : Value} (h : v.IsLoadedKey) : v.IsLoaded := by
  cases v with
  | null | bool | int | text | bytes | date | time => trivial
  | float => exact h
  | decimal | uuid | tag | list | tuple | set | map | other => exact h.elim

theorem Entries.pairwise_put {es : Entries} {k v : Value} (h : es.Pairwise fun p q => p.1.sameKey q.1 = false) :
    (es.put k v).Pairwise fun p q => p.1.sameKey q.1 = false := by
  induction es with
  | nil => exact List.pairwise_singleton ..
  | cons e es ih =>
    obtain ⟨k', w⟩ := e
    obtain ⟨hk, hes⟩ := List.pairwise_cons.mp h
    rw [put]
    split
    · exact List.pairwise_cons.mpr ⟨hk, hes⟩
    · next hne =>
      have apart := forall_put (P := fun l => k'.sameKey l = false) (Q := fun _ => True) (v := v)
        (fun p hp => ⟨hk p hp, trivial⟩) (by simpa using hne) trivial
      exact List.pairwise_cons.mpr ⟨fun p hp => (apart p hp).1, ih hes⟩

theorem Entries.haveLoaded_ofPairs {ps : Entries} (h : ∀ p ∈ ps, p.1.IsLoadedKey ∧ p.2.IsLoaded) :
    Value.HaveLoaded (ofPairs ps) := by
  have apart : ∀ (ps es : Entries), (es.Pairwise fun p q => p.1.sameKey q.1 = false) →
      (ps.foldl (fun es p => Entries.put es p.1 p.2) es).Pairwise fun p q => p.1.sameKey q.1 = false := by
    intro ps
    induction ps with
    | nil => exact fun _ h => h
    | cons p ps ih => exact fun es h => ih _ (pairwise_put h)
  exact Value.haveLoaded_iff.mpr ⟨forall_ofPairs h, apart ps [] .nil⟩

namespace Yaml

variable {s : String} {v : Value} {d : Nat} {tag : Tag}

/-! ## Scalars -/

theorem fractionOf_isNumber {cs : List Char} {x : Binary64} (h : fractionOf cs = .ok x) : x.IsNumber := by
  unfold fractionOf at h
  split at h
  · next hr =>
    cases h
    exact Binary64.read?_isNumber hr
  · cases h

theorem sixtySum_isNumber {worth : Int} {sum x : Binary64} {xs : List Binary64} (hs : sum.IsNumber)
    (h : sixtySum worth sum xs = .ok x) : x.IsNumber := by
  induction xs generalizing worth sum with
  | nil =>
    cases h
    exact hs
  | cons y ys ih =>
    rw [sixtySum] at h
    split at h
    · exact ih (Binary64.add_isNumber hs (Binary64.mul_isNumber ..)) h
    · cases h

theorem signed_isNumber (neg : Bool) {x : Binary64} (h : x.IsNumber) :
    (if neg = true then x.negate else x).IsNumber := by
  split
  · exact Binary64.negate_isNumber h
  · exact h

theorem floatOf_isNumber {x : Binary64} (h : floatOf s = .ok x) : x.IsNumber := by
  unfold floatOf at h
  dsimp only at h
  split at h
  · cases h
  · split at h
    · cases h
      exact signed_isNumber _ trivial
    · split at h
      · cases h
        exact signed_isNumber _ trivial
      · split at h
        · obtain ⟨places, -, h⟩ := bind_ok h
          obtain ⟨y, hy, h⟩ := bind_ok h
          cases h
          exact signed_isNumber _ (sixtySum_isNumber (Binary64.zero_isNumber false) hy)
        · obtain ⟨y, hy, h⟩ := bind_ok h
          cases h
          exact signed_isNumber _ (fractionOf_isNumber hy)

theorem timeOf_isLoadedKey {cs : List Char} (h : timeOf cs = .ok v) : v.IsLoadedKey := by
  unfold timeOf at h
  split at h
  · next t _ =>
    have hv := mapError_ok h
    unfold WrittenTime.value? at hv
    dsimp only at hv
    split at hv
    · obtain ⟨day, -, rfl⟩ := map_ok hv
      trivial
    · obtain ⟨offset, -, hv⟩ := bind_ok hv
      obtain ⟨date, -, hv⟩ := bind_ok hv
      obtain ⟨time, -, hv⟩ := bind_ok hv
      cases hv
      trivial
  · cases h

theorem scalarValue_isLoadedKey (h : scalarValue tag s = .ok v) : v.IsLoadedKey := by
  unfold scalarValue at h
  split at h
  · cases h; trivial
  · obtain ⟨b, -, rfl⟩ := map_ok h
    trivial
  · obtain ⟨n, -, rfl⟩ := map_ok h
    trivial
  · obtain ⟨x, hx, rfl⟩ := map_ok h
    exact floatOf_isNumber hx
  · obtain ⟨bs, -, rfl⟩ := map_ok h
    trivial
  · exact timeOf_isLoadedKey h
  · cases h; trivial
  · cases h

/-! ## Nodes -/

namespace Built

variable {α β : Type}

theorem both_ok {a : Built α} {b : Built β} {p : α × β} (h : both a b = .ok p) : a = .ok p.1 ∧ b = .ok p.2 := by
  cases a with
  | error e => cases b <;> cases h
  | ok x =>
    cases b with
    | error f => cases h
    | ok y =>
      cases h
      exact ⟨rfl, rfl⟩

theorem cons_ok {a : Built α} {as : Built (List α)} {xs : List α} (h : cons a as = .ok xs) :
    ∃ y ys, xs = y :: ys ∧ a = .ok y ∧ as = .ok ys := by
  obtain ⟨p, hp, rfl⟩ := map_ok h
  exact ⟨p.1, p.2, rfl, both_ok hp⟩

theorem append_ok {as bs : Built (List α)} {xs : List α} (h : append as bs = .ok xs) :
    ∃ ys zs, xs = ys ++ zs ∧ as = .ok ys ∧ bs = .ok zs := by
  obtain ⟨p, hp, rfl⟩ := map_ok h
  exact ⟨p.1, p.2, rfl, both_ok hp⟩

end Built

namespace Node

/-- Keys that a loaded document can have, with loaded values. -/
def AreEntries (ps : List (Value × Value)) : Prop := ∀ p ∈ ps, p.1.IsLoadedKey ∧ p.2.IsLoaded

theorem standIn_isLoadedKey {n : Node} (h : standIn d n = .ok v) : v.IsLoadedKey := by
  unfold standIn at h
  split at h
  · cases h
  · split at h
    · cases h
    · exact scalarValue_isLoadedKey (mapError_ok h)

theorem buildKey_isLoadedKey {n : Node} (h : buildKey d n = .ok v) : v.IsLoadedKey := by
  unfold buildKey at h
  split at h
  · cases h
    trivial
  · split at h
    · cases h
    · exact scalarValue_isLoadedKey (mapError_ok h)
  · split at h
    · cases h
    · exact standIn_isLoadedKey h

theorem joinMerged_ok {es : List (Node × Node)} {merged own : Built (List (Value × Value))}
    {ps : List (Value × Value)}
    (h : joinMerged d es merged own = .ok ps) : ∃ qs rs, ps = qs ++ rs ∧ merged = .ok qs ∧ own = .ok rs := by
  unfold joinMerged at h
  split at h
  · exact Built.append_ok h
  · cases h

mutual

/-- Every value of a node is a loaded one. -/
theorem isLoaded_of_build (d : Nat) (n : Node) {v : Value} (h : build d n = .ok v) : v.IsLoaded := by
  cases n with
  | scalar t s =>
    rw [build] at h
    exact (scalarValue_isLoadedKey (mapError_ok h)).isLoaded
  | sequence t ns =>
    unfold build at h
    split at h
    · obtain ⟨vs, hvs, rfl⟩ := map_ok h
      exact areLoaded_of_buildAll _ ns hvs
    · obtain ⟨vs, hvs, rfl⟩ := map_ok h
      exact areLoaded_of_buildPairs _ ns hvs
    · obtain ⟨vs, hvs, rfl⟩ := map_ok h
      exact areLoaded_of_buildPairs _ ns hvs
    · cases h
    · cases h
    · exact (standIn_isLoadedKey h).isLoaded
  | mapping t es =>
    unfold build at h
    split at h
    · obtain ⟨ps, hps, rfl⟩ := map_ok h
      obtain ⟨qs, rs, rfl, hqs, hrs⟩ := joinMerged_ok hps
      exact Entries.haveLoaded_ofPairs (List.forall_mem_append.mpr
        ⟨areEntries_of_buildMerged _ es hqs, areEntries_of_buildOwn _ es hrs⟩)
    · obtain ⟨ps, -, rfl⟩ := map_ok h
      trivial
    · cases h
    · cases h
    · cases h
    · exact (standIn_isLoadedKey h).isLoaded
  | enclosing =>
    rw [build] at h
    cases h
    trivial
termination_by structural n

theorem areLoaded_of_buildAll (d : Nat) (ns : List Node) {vs : List Value} (h : buildAll d ns = .ok vs) :
    Value.AreLoaded vs := by
  cases ns with
  | nil =>
    rw [buildAll] at h
    cases h
    trivial
  | cons n ns =>
    rw [buildAll] at h
    obtain ⟨v, vs, rfl, hv, hvs⟩ := Built.cons_ok h
    exact ⟨isLoaded_of_build d n hv, areLoaded_of_buildAll d ns hvs⟩
termination_by structural ns

theorem areLoaded_of_buildPairs (d : Nat) (ns : List Node) {vs : List Value} (h : buildPairs d ns = .ok vs) :
    Value.AreLoaded vs := by
  cases ns with
  | nil =>
    rw [buildPairs] at h
    cases h
    trivial
  | cons n ns =>
    cases n with
    | scalar | sequence | enclosing => rw [buildPairs] at h <;> [cases h; simp]
    | mapping t es =>
      match es with
      | [] => rw [buildPairs] at h <;> [cases h; simp]
      | [(k, v)] =>
        rw [buildPairs] at h
        obtain ⟨w, ws, rfl, hw, hws⟩ := Built.cons_ok h
        obtain ⟨p, hp, rfl⟩ := map_ok hw
        obtain ⟨hk, hv⟩ := Built.both_ok hp
        exact ⟨⟨isLoaded_of_build d k hk, isLoaded_of_build d v hv, trivial⟩, areLoaded_of_buildPairs d ns hws⟩
      | _ :: _ :: _ => rw [buildPairs] at h <;> [cases h; simp]
termination_by structural ns

theorem areEntries_of_buildOwn (d : Nat) (es : List (Node × Node)) {ps : List (Value × Value)}
    (h : buildOwn d es = .ok ps) : AreEntries ps := by
  cases es with
  | nil =>
    rw [buildOwn] at h
    cases h
    exact fun p hp => nomatch hp
  | cons e es =>
    obtain ⟨k, v⟩ := e
    rw [buildOwn] at h
    split at h
    · exact areEntries_of_buildOwn d es h
    · obtain ⟨p, ps, rfl, hp, hps⟩ := Built.cons_ok h
      obtain ⟨hk, hv⟩ := Built.both_ok hp
      exact List.forall_mem_cons.mpr
        ⟨⟨buildKey_isLoadedKey hk, isLoaded_of_build d v hv⟩, areEntries_of_buildOwn d es hps⟩
termination_by structural es

theorem areEntries_of_buildMerged (d : Nat) (es : List (Node × Node)) {ps : List (Value × Value)}
    (h : buildMerged d es = .ok ps) : AreEntries ps := by
  cases es with
  | nil =>
    rw [buildMerged] at h
    cases h
    exact fun p hp => nomatch hp
  | cons e es =>
    obtain ⟨k, v⟩ := e
    rw [buildMerged] at h
    split at h
    · obtain ⟨ps, qs, rfl, hps, hqs⟩ := Built.append_ok h
      exact List.forall_mem_append.mpr ⟨areEntries_of_buildFrom d v hps, areEntries_of_buildMerged d es hqs⟩
    · exact areEntries_of_buildMerged d es h
termination_by structural es

theorem areEntries_of_buildFrom (d : Nat) (n : Node) {ps : List (Value × Value)} (h : buildFrom d n = .ok ps) :
    AreEntries ps := by
  cases n with
  | mapping t es =>
    rw [buildFrom] at h
    obtain ⟨ps, qs, rfl, hps, hqs⟩ := Built.append_ok h
    exact List.forall_mem_append.mpr ⟨areEntries_of_buildMerged d es hps, areEntries_of_buildOwn d es hqs⟩
  | sequence t ns =>
    rw [buildFrom] at h
    exact areEntries_of_buildFromAll d ns h
  | scalar | enclosing =>
    unfold buildFrom at h
    cases h
    exact fun p hp => nomatch hp
termination_by structural n

theorem areEntries_of_buildFromAll (d : Nat) (ns : List Node) {ps : List (Value × Value)}
    (h : buildFromAll d ns = .ok ps) : AreEntries ps := by
  cases ns with
  | nil =>
    rw [buildFromAll] at h
    cases h
    exact fun p hp => nomatch hp
  | cons n ns =>
    rw [buildFromAll] at h
    obtain ⟨ps, qs, rfl, hps, hqs⟩ := Built.append_ok h
    exact List.forall_mem_append.mpr ⟨areEntries_of_buildFromAll d ns hps, areEntries_of_buildFrom d n hqs⟩
termination_by structural ns

end

end Node

theorem isLoaded_of_read? (h : read? s = .ok v) : v.IsLoaded := by
  unfold read? at h
  obtain ⟨n?, -, h⟩ := bind_ok h
  cases n? with
  | none =>
    cases h
    trivial
  | some n =>
    have hv : n.value? = .ok v := h
    unfold Node.value? at hv
    cases hb : n.build 0 with
    | error e => rw [hb] at hv; cases hv
    | ok w =>
      rw [hb] at hv
      dsimp only at hv
      split at hv
      · cases hv
      · cases hv
        exact n.isLoaded_of_build 0 hb

end Yaml

end LoanLedger
