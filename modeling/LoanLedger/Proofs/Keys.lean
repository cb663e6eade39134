import LoanLedger.Event.Key

/-!
# Keys and their parts

* `Key.cut?_eq_some_iff` : characters are cut at their first colon, and `Key.cut?_eq_none_iff` : not at all without one;
* `Key.split?_eq_some_iff` : the parts of a key are the three texts that join to it, the first two without a colon;
* `Key.split?_join`, `Key.join_inj` : so a key tells such parts;
* `Key.keys_decode` : a text has parts exactly when there are two colons in it, and joining them gives it back; a key
  gives back what it was joined from exactly when there is no colon in the first two parts.
-/

namespace LoanLedger.Key

variable {key loanId type identity loanId' type' identity' : String} {cs l r : List Char}

/-! ## Cutting at a colon -/

theorem cut?_append (h : ':' ∉ l) (r : List Char) : cut? (l ++ ':' :: r) = some (l, r) := by
  induction l with
  | nil => rfl
  | cons c cs ih =>
    have hc : c ≠ ':' := fun hc => h (hc ▸ List.mem_cons_self)
    rw [List.cons_append, cut?, if_neg hc, ih fun hm => h (List.mem_cons_of_mem _ hm)]
    rfl

theorem cut?_eq_none_iff : cut? cs = none ↔ ':' ∉ cs := by
  induction cs with
  | nil => simp [cut?]
  | cons c cs ih =>
    rw [cut?, List.mem_cons, not_or]
    by_cases hc : c = ':'
    · simp [hc]
    · rw [if_neg hc, Option.map_eq_none_iff, ih]
      exact ⟨fun h => ⟨Ne.symm hc, h⟩, fun h => h.2⟩

/-- What is cut off is what stands before the first colon. -/
theorem cut?_eq_some_iff : cut? cs = some (l, r) ↔ cs = l ++ ':' :: r ∧ ':' ∉ l := by
  constructor
  · intro h
    induction cs generalizing l with
    | nil => cases h
    | cons c cs ih =>
      rw [cut?] at h
      by_cases hc : c = ':'
      · rw [if_pos hc] at h
        cases h
        exact ⟨by rw [hc, List.nil_append], List.not_mem_nil⟩
      · rw [if_neg hc] at h
        obtain ⟨⟨l', r'⟩, hcut, hp⟩ := Option.map_eq_some_iff.mp h
        cases hp
        obtain ⟨hcs, hl⟩ := ih hcut
        exact ⟨by rw [hcs, List.cons_append], List.not_mem_cons_of_ne_of_not_mem (Ne.symm hc) hl⟩
  · rintro ⟨rfl, h⟩
    exact cut?_append h r

/-! ## Splitting keys -/

theorem toList_join (loanId type identity : String) :
    (join loanId type identity).toList = loanId.toList ++ ':' :: (type.toList ++ ':' :: identity.toList) := by
  simp [join]

/-- The parts of a key are the texts that join to it, the first two without a colon. -/
theorem split?_eq_some_iff : split? key = some (loanId, type, identity) ↔
    key = join loanId type identity ∧ ':' ∉ loanId.toList ∧ ':' ∉ type.toList := by
  rw [← String.toList_inj, toList_join]
  constructor
  · intro h
    obtain ⟨⟨l, rest⟩, hl, h⟩ := Option.bind_eq_some_iff.mp h
    obtain ⟨⟨t, i⟩, ht, h⟩ := Option.bind_eq_some_iff.mp h
    cases h
    obtain ⟨hkey, hl⟩ := cut?_eq_some_iff.mp hl
    obtain ⟨hrest, ht⟩ := cut?_eq_some_iff.mp ht
    simp only [String.toList_ofList]
    exact ⟨by rw [hkey, hrest], hl, ht⟩
  · rintro ⟨hkey, hl, ht⟩
    rw [split?, hkey, cut?_append hl]
    dsimp only [Option.bind_eq_bind, Option.bind_some]
    rw [cut?_append ht]
    simp

/-- A key has its three parts, if there is no colon in the first two. -/
theorem split?_join (hl : ':' ∉ loanId.toList) (ht : ':' ∉ type.toList) (identity : String) :
    split? (join loanId type identity) = some (loanId, type, identity) :=
  split?_eq_some_iff.mpr ⟨rfl, hl, ht⟩

theorem join_inj (hl : ':' ∉ loanId.toList) (ht : ':' ∉ type.toList) (hl' : ':' ∉ loanId'.toList)
    (ht' : ':' ∉ type'.toList) (h : join loanId type identity = join loanId' type' identity') :
    loanId = loanId' ∧ type = type' ∧ identity = identity' := by
  have parts := split?_join hl ht identity
  rw [h, split?_join hl' ht' identity'] at parts
  cases parts
  exact ⟨rfl, rfl, rfl⟩

/-- A text cannot be split if there are fewer than two colons in it. -/
theorem split?_eq_none_iff : split? key = none ↔ key.toList.count ':' < 2 := by
  have parted : split? key = (cut? key.toList).bind fun p => (cut? p.2).bind fun q =>
      some (String.ofList p.1, String.ofList q.1, String.ofList q.2) := rfl
  rw [parted]
  cases hl : cut? key.toList with
  | none =>
    have none_before := List.count_eq_zero.mpr (cut?_eq_none_iff.mp hl)
    simp [none_before]
  | some p =>
    obtain ⟨hkey, hno⟩ := cut?_eq_some_iff.mp hl
    -- the colon of the first cut counts, and those behind it
    have colons : key.toList.count ':' = p.2.count ':' + 1 := by
      rw [hkey, List.count_append, List.count_eq_zero.mpr hno, List.count_cons_self, Nat.zero_add]
    rw [colons, Option.bind_some]
    cases ht : cut? p.2 with
    | none =>
      have none_behind := List.count_eq_zero.mpr (cut?_eq_none_iff.mp ht)
      simp [none_behind]
    | some q =>
      obtain ⟨hrest, -⟩ := cut?_eq_some_iff.mp ht
      have : 0 < p.2.count ':' := List.count_pos_iff.mpr (by rw [hrest]; simp)
      simp only [Option.bind_some, reduceCtorEq, false_iff]
      omega

/-! ## What keys tell -/

/-- A text has three parts exactly when there are two colons in it, and joining the parts gives it back. A key gives
back the texts that it was joined from exactly when there is no colon in the first two; the last may hold any. -/
theorem keys_decode :
    (∀ key, (split? key).map (fun p => join p.1 p.2.1 p.2.2) = if 2 ≤ key.toList.count ':' then some
      key else none) ∧
    ∀ loanId type identity, split? (join loanId type identity) = some (loanId, type, identity) ↔
      ':' ∉ loanId.toList ∧ ':' ∉ type.toList := by
  refine ⟨fun key => ?_, fun loanId type identity => ?_⟩
  · cases h : split? key with
    | none =>
      have few := split?_eq_none_iff.mp h
      rw [if_neg (by omega)]
      rfl
    | some p =>
      obtain ⟨loanId, type, identity⟩ := p
      obtain ⟨hkey, -, -⟩ := split?_eq_some_iff.mp h
      have enough : 2 ≤ key.toList.count ':' := by
        refine Nat.le_of_not_lt fun few => ?_
        rw [split?_eq_none_iff.mpr few] at h
        cases h
      rw [if_pos enough, Option.map_some, ← hkey]
  · rw [split?_eq_some_iff]
    exact ⟨fun h => h.2, fun h => ⟨rfl, h⟩⟩

-- Only the last part keeps its colons.
example : split? (join "L1" "KYC:2" "a:b") = some ("L1", "KYC", "2:a:b") := by
  rfl

end LoanLedger.Key
