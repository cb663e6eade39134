import LoanLedger.Calendar.Timestamp

/-!
# The same instant in UTC

* `Date.ordinal_of_ofOrdinal?` : the day with a number has that number;
* `Timestamp.localMicros_of_ofLocalMicros?` : so the local time a while after the first instant of year 1 is that much
  after it;
* `Timestamp.instant_of_toUtc?` : and a time that is given in UTC instead is the same instant.
-/

namespace LoanLedger.Calendar

/-! ## Days -/

namespace Date

variable {n : Nat}

/-- What is found last among some candidates passes the test, if it is not what the search began with. -/
theorem foldl_found {p : Nat → Prop} [DecidablePred p] (ms : List Nat) (first : Nat) :
    let found := ms.foldl (fun found m => if p m then m else found) first
    found = first ∨ p found := by
  induction ms generalizing first with
  | nil => exact .inl rfl
  | cons m ms ih =>
    by_cases hm : p m
    · simp only [List.foldl_cons, if_pos hm]
      exact .inr ((ih m).elim (fun h => h.symm ▸ hm) id)
    · simp only [List.foldl_cons, if_neg hm]
      exact ih first

theorem monthAndDay_snd (year n : Nat) :
    (monthAndDay year n).2 = n - daysBeforeMonth year (monthAndDay year n).1 + 1 :=
  rfl

theorem daysBeforeMonth_le (year n : Nat) : daysBeforeMonth year (monthAndDay year n).1 ≤ n := by
  rcases foldl_found (p := fun m => daysBeforeMonth year m ≤ n) ((List.range 13).drop 1) 1 with h | h
  · rw [monthAndDay, h]
    exact Nat.zero_le n
  · exact h

theorem daysBeforeYear_cycles {a b c k : Nat} (hb : b ≤ 3) (hc : c ≤ 24) (hk : k ≤ 3) :
    daysBeforeYear (a * 400 + b * 100 + c * 4 + k + 1) = a * 146097 + b * 36524 + c * 1461 + k * 365 := by
  have h4 : (a * 400 + b * 100 + c * 4 + k) / 4 = a * 100 + b * 25 + c := by omega
  have h100 : (a * 400 + b * 100 + c * 4 + k) / 100 = a * 4 + b := by omega
  have h400 : (a * 400 + b * 100 + c * 4 + k) / 400 = a := by omega
  simp only [daysBeforeYear, Nat.add_sub_cancel, h4, h100, h400]
  omega

/-- The days of the years before, and those of the year itself, add up. The last day of a long cycle is that of the
last year in it. -/
theorem daysBeforeYear_add (h : 1 ≤ n) : daysBeforeYear (yearAndRest n).1 + (yearAndRest n).2 + 1 = n := by
  unfold yearAndRest
  dsimp only
  split
  · next hlast =>
    simp only [Bool.or_eq_true, decide_eq_true_eq] at hlast
    dsimp only
    by_cases h100 : (n - 1) % 146097 / 36524 = 4
    · have year : (n - 1) / 146097 * 400 + (n - 1) % 146097 / 36524 * 100 + (n - 1) % 146097 % 36524 / 1461 * 4 +
          (n - 1) % 146097 % 36524 % 1461 / 365 + 1 - 1 = (n - 1) / 146097 * 400 + 3 * 100 + 24 * 4 + 3 + 1 := by
        omega
      rw [year, daysBeforeYear_cycles (b := 3) (c := 24) (k := 3) (by decide) (by decide) (by decide)]
      omega
    · have h1 := hlast.resolve_right h100
      have year : (n - 1) / 146097 * 400 + (n - 1) % 146097 / 36524 * 100 + (n - 1) % 146097 % 36524 / 1461 * 4 +
          (n - 1) % 146097 % 36524 % 1461 / 365 + 1 - 1 = (n - 1) / 146097 * 400 + (n - 1) % 146097 / 36524 * 100 +
            (n - 1) % 146097 % 36524 / 1461 * 4 + 3 + 1 := by
        omega
      rw [year, daysBeforeYear_cycles (by omega) (by omega) (by decide)]
      omega
  · next hlast =>
    simp only [Bool.or_eq_true, decide_eq_true_eq, not_or] at hlast
    dsimp only
    rw [daysBeforeYear_cycles (by omega) (by omega) (by omega)]
    omega

theorem one_le_ordinal (d : Date) : 1 ≤ d.ordinal :=
  Nat.le_trans d.isDay.2.2.1 (Nat.le_add_left _ _)

theorem ordinal_of_ofYmd? {year month day : Nat} {d : Date} (h : ofYmd? year month day = some d) :
    d.ordinal = daysBeforeYear year + daysBeforeMonth year month + day := by
  obtain ⟨isDay, hd⟩ := Option.dite_none_right_eq_some.mp h
  cases hd
  rfl

theorem ordinal_of_ofOrdinal? {n : Int} {d : Date} (h : ofOrdinal? n = some d) : (d.ordinal : Int) = n := by
  obtain ⟨hn, h⟩ := Option.ite_none_left_eq_some.mp h
  simp only [Bool.or_eq_true, decide_eq_true_eq, not_or, Int.not_lt] at hn
  have year := daysBeforeYear_add (n := n.toNat) (by omega)
  generalize yearAndRest n.toNat = p at h year
  obtain ⟨y, rest⟩ := p
  have month := daysBeforeMonth_le y rest
  have ordinal : d.ordinal = daysBeforeYear y + daysBeforeMonth y (monthAndDay y rest).1 + (monthAndDay y rest).2 :=
    ordinal_of_ofYmd? h
  rw [monthAndDay_snd] at ordinal
  dsimp only at year
  omega

end Date

/-! ## Times -/

theorem TimeOfDay.toMicros_ofMicros {n : Nat} (h : n < microsPerDay) : (ofMicros n).toMicros = n := by
  unfold microsPerDay at h
  simp only [ofMicros, toMicros]
  omega

namespace Timestamp

variable {t u : Timestamp} {n : Int} {offset : Option Offset}

theorem localMicros_of_ofLocalMicros? (h : ofLocalMicros? n offset = some t) :
    (t.localMicros : Int) = n ∧ t.offset = offset := by
  obtain ⟨date, hd, h⟩ := Option.bind_eq_some_iff.mp h
  cases h
  have ordinal := Date.ordinal_of_ofOrdinal? hd
  have first := date.one_le_ordinal
  have day : (0 : Int) < microsPerDay := by decide
  have rest := Int.fmod_nonneg_of_pos n day
  have short := Int.fmod_lt_of_pos n day
  have sum := Int.mul_fdiv_add_fmod n microsPerDay
  have time := TimeOfDay.toMicros_ofMicros (n := (n.fmod microsPerDay).toNat) (by omega)
  refine ⟨?_, rfl⟩
  change (((date.ordinal - 1) * microsPerDay + (TimeOfDay.ofMicros (n.fmod microsPerDay).toNat).toMicros : Nat) : Int) =
    n
  rw [time]
  generalize n.fdiv microsPerDay = days at ordinal sum
  generalize n.fmod microsPerDay = micros at rest short sum ⊢
  rw [microsPerDay] at sum ⊢
  omega

theorem instant_of_toUtc? (h : t.toUtc? = some u) : u.instant = t.instant := by
  unfold toUtc? at h
  split at h
  · next ho =>
    cases h
    rw [instant, instant, ho]
    rfl
  · split at h
    · cases h
      rfl
    · obtain ⟨hlocal, hoffset⟩ := localMicros_of_ofLocalMicros? h
      rw [instant, hlocal, hoffset]
      exact Int.sub_zero _

end Timestamp

end LoanLedger.Calendar
