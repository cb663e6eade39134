import LoanLedger.Locks.Basic
import LoanLedger.Settings
import Mathlib.Algebra.Group.Int.Defs

/-!
# Timeouts from the environment

* `Patience.IsWaitable x` : `x` is a finite number of seconds, not below zero, and its nanoseconds fit into 64 bits;
* `Patience.ofValue?_float` : of the numbers that are not below zero these are the ones that a lock can be waited for;
* `Settings.Gives` : what the variables give (`Settings.ofEnvironment?_gives`), or what is wrong with them first;
* `Settings.timeouts_screened` : variables give settings whose timeout is nothing or a number not below zero, or they
  are refused; a lock takes the timeout unless it is not-a-number or too large;
* `Settings.nan_isAccepted` : these are let through.
-/

namespace LoanLedger

/-! ## Seconds -/

namespace Patience

/-- The number of seconds is finite and not below zero, and its nanoseconds fit into 64 bits. -/
def IsWaitable (x : Binary64) : Prop :=
  ∃ num den, x.toRatio? = some (num, den) ∧ 0 ≤ num ∧ num * 1000000000 ≤ (2 ^ 63 - 1) * (den : Int)

/-- Rounding up goes beyond whole numbers only where the fraction does. -/
theorem awayFromZero_le_iff {num n : Int} {den : Nat} (hn : 0 ≤ num) (hd : 0 < den) :
    awayFromZero num den ≤ n ↔ num ≤ n * den := by
  have positive : (0 : Int) < den := Int.natCast_pos.mpr hd
  have floor : -n ≤ -num / den ↔ -n * den ≤ -num := Int.le_ediv_iff_mul_le positive
  rw [awayFromZero, if_neg (by omega), Int.fdiv_eq_ediv_of_nonneg _ (Int.le_of_lt positive)]
  rw [Int.neg_mul] at floor
  omega

theorem awayFromZero_nonneg {num : Int} {den : Nat} (hn : 0 ≤ num) (hd : 0 < den) : 0 ≤ awayFromZero num den := by
  have below : -num / (den : Int) ≤ 0 := Int.ediv_le_of_le_mul (Int.natCast_pos.mpr hd) (by omega)
  rw [awayFromZero, if_neg (by omega), Int.fdiv_eq_ediv_of_nonneg _ (by omega)]
  omega

theorem ofNanos?_nonneg {n : Int} (h : 0 ≤ n) :
    ofNanos? n = if n ≤ 2 ^ 63 - 1 then .ok .limited else .error .tooLarge := by
  have limit : ((Nat.pow 2 63 : Nat) : Int) = 2 ^ 63 := rfl
  unfold ofNanos?
  rw [limit]
  by_cases hn : n ≤ 2 ^ 63 - 1
  · have inside : ¬(decide (n < -2 ^ 63) || decide (2 ^ 63 ≤ n)) = true := by simp; omega
    rw [if_pos hn, if_neg inside, if_neg (by omega), if_neg (by omega)]
  · have outside : (decide (n < -2 ^ 63) || decide (2 ^ 63 ≤ n)) = true := by simp; omega
    rw [if_neg hn, if_pos outside]

end Patience

namespace Binary64

/-- A number that is not below zero is not-a-number, or infinite, or a fraction that is not below zero. -/
theorem cases_of_not_negative {x : Binary64} (h : x.isNegative = false) :
    x = nan ∨ x = infinity false ∨ ∃ num den, x.toRatio? = some (num, den) ∧ 0 ≤ num ∧ 0 < den := by
  cases x with
  | nan => exact .inl rfl
  | infinity neg => exact .inr (.inl (congrArg infinity h))
  | finite neg m e =>
    refine .inr (.inr ⟨_, _, rfl, ?_, ?_⟩)
    · cases neg with
      | false => simp only [Bool.false_eq_true, if_false]; omega
      | true =>
        obtain rfl : m = 0 := by simpa [isNegative] using h
        simp
    · split
      · exact Nat.one_pos
      · exact Nat.pow_pos (by decide)

end Binary64

namespace Patience

variable {x : Binary64}

/-- Of the numbers that are not below zero a lock can be waited for those whose nanoseconds fit into 64 bits. -/
theorem ofValue?_float (h : x.isNegative = false) :
    (IsWaitable x → ofValue? (.float x) = .ok .limited) ∧
      (¬IsWaitable x → ofValue? (.float x) = .error (if x = .nan then .notANumber else .tooLarge)) := by
  rcases Binary64.cases_of_not_negative h with rfl | rfl | ⟨num, den, hr, hn, hd⟩
  · exact ⟨fun ⟨_, _, h, _⟩ => (nomatch h), fun _ => rfl⟩
  · exact ⟨fun ⟨_, _, h, _⟩ => (nomatch h), fun _ => rfl⟩
  · have finite : x ≠ .nan := by
      rintro rfl
      cases hr
    have seconds : ofValue? (.float x) = ofNanos? (awayFromZero (num * 1000000000) den) := by
      cases x with
      | nan => cases hr
      | infinity => cases hr
      | finite neg m e => rw [ofValue?, hr]; intro h; cases h
    have waitable : IsWaitable x ↔ num * 1000000000 ≤ (2 ^ 63 - 1) * (den : Int) := by
      constructor
      · rintro ⟨num', den', hr', -, fits⟩
        rw [hr] at hr'
        cases hr'
        exact fits
      · exact fun fits => ⟨num, den, hr, hn, fits⟩
    have nanos : 0 ≤ num * 1000000000 := by omega
    rw [seconds, ofNanos?_nonneg (awayFromZero_nonneg nanos hd), waitable, if_neg finite]
    rw [← awayFromZero_le_iff nanos hd]
    exact ⟨fun fits => if_pos fits, fun large => if_neg large⟩

end Patience

/-- A lock refuses a timeout just where it is no number of seconds. -/
theorem Locks.hold_patience_iff {t : Locks} {id : String} {timeout : Value} {r : PatienceError} :
    (t.hold id timeout).2 = .error (.patience r) ↔ Patience.ofValue? timeout = .error r := by
  unfold hold
  dsimp only
  cases hp : Patience.ofValue? timeout with
  | error r' => simp
  | ok p =>
    by_cases taken : (t.checkout id).isHeld id = true
    · cases p <;> simp [taken]
    · simp [taken]

/-! ## Settings -/

namespace Settings

/-- The name of the log level that the variables give. -/
def levelOf (env : List (String × String)) : String :=
  Text.upper (Text.trim ((env.lookup "LENDING_LOG_LEVEL").getD "INFO"))

/-- The text of the timeout that the variables give. -/
def timeoutOf (env : List (String × String)) : String :=
  lookup env "LENDING_LOCK_TIMEOUT_SECONDS"

/-- What variables give: settings, or what is wrong first. -/
inductive Gives (env : List (String × String)) : Except Error Settings → Prop where
  | unknownLevel : Log.severity? (levelOf env) = none → Gives env (.error (.unknownLevel (levelOf env)))
  | notNumber : Log.severity? (levelOf env) ≠ none → timeoutOf env ≠ "" →
    Binary64.read? (timeoutOf env) = none → Gives env (.error (.timeoutNotNumber (timeoutOf env)))
  | negative {x : Binary64} : Log.severity? (levelOf env) ≠ none → Binary64.read? (timeoutOf env) = some x →
    x.isNegative = true → Gives env (.error (.timeoutNegative (timeoutOf env)))
  | endless {s : Settings} : Log.severity? (levelOf env) ≠ none → timeoutOf env = "" → s.lockTimeout = none →
    Gives env (.ok s)
  | limited {s : Settings} {x : Binary64} : Log.severity? (levelOf env) ≠ none →
    Binary64.read? (timeoutOf env) = some x → x.isNegative = false → s.lockTimeout = some x → Gives env (.ok s)

variable {env : List (String × String)} {s : Settings} {x : Binary64}

theorem ofEnvironment?_gives (env : List (String × String)) : Gives env (ofEnvironment? env) := by
  unfold ofEnvironment?
  rw [← levelOf, ← timeoutOf]
  dsimp only
  cases hl : Log.severity? (levelOf env) with
  | none => exact .unknownLevel hl
  | some n =>
    have known : Log.severity? (levelOf env) ≠ none := by rw [hl]; exact Option.some_ne_none n
    rw [if_neg (by simp), timeout?]
    by_cases ht : timeoutOf env = ""
    · rw [if_pos ht]
      exact .endless known ht rfl
    · rw [if_neg ht]
      cases hr : Binary64.read? (timeoutOf env) with
      | none => exact .notNumber known ht hr
      | some x =>
        dsimp only
        by_cases hx : x.isNegative = true
        · rw [if_pos hx]
          exact .negative known hr hx
        · rw [if_neg hx]
          exact .limited known hr (Bool.eq_false_iff.mpr hx) rfl

theorem Error.report_name (e : Error) : e.report.name = "ValueError" := by
  cases e <;> rfl

/-- The timeout of settings that the variables give is not below zero. -/
theorem Gives.not_negative (h : Gives env (.ok s)) (hx : s.lockTimeout = some x) : x.isNegative = false := by
  cases h with
  | endless _ _ hs => rw [hs] at hx; cases hx
  | limited _ _ hn hs =>
    rw [hs] at hx
    cases hx
    exact hn

/-- Variables give settings, or are refused with a `ValueError`. The timeout of the settings is nothing, or a number
that is not below zero: a finite one, infinity, or not-a-number. A lock refuses it just where it is not finite, or its
nanoseconds do not fit into 64 bits. -/
theorem timeouts_screened (env : List (String × String)) :
    Gives env (ofEnvironment? env) ∧
    (∀ e, ofEnvironment? env = .error e → e.report.name = "ValueError") ∧
    ∀ s, ofEnvironment? env = .ok s →
      (s.lockTimeout = none ∨ ∃ x, s.lockTimeout = some x ∧
        (x = .nan ∨ x = .infinity false ∨ ∃ num den, x.toRatio? = some (num, den) ∧ 0 ≤ num ∧ 0 < den)) ∧
      ∀ (t : Locks) (id : String) (r : PatienceError), (t.hold id s.waiting).2 = .error (.patience r) ↔
        ∃ x, s.lockTimeout = some x ∧ ¬Patience.IsWaitable x ∧ r = if x = .nan then .notANumber
          else .tooLarge := by
  have given := ofEnvironment?_gives env
  refine ⟨given, fun e _ => e.report_name, fun s hs => ?_⟩
  rw [hs] at given
  cases ht : s.lockTimeout with
  | none =>
    refine ⟨.inl rfl, fun t id r => ?_⟩
    have patient : Patience.ofValue? s.waiting = .ok .forever := by rw [waiting, ht]; rfl
    rw [Locks.hold_patience_iff, patient]
    simp
  | some x =>
    have positive := given.not_negative ht
    refine ⟨.inr ⟨x, rfl, Binary64.cases_of_not_negative positive⟩, fun t id r => ?_⟩
    have seconds : Patience.ofValue? s.waiting = Patience.ofValue? (.float x) := by rw [waiting, ht]; rfl
    obtain ⟨waited, refused⟩ := Patience.ofValue?_float positive
    rw [Locks.hold_patience_iff, seconds]
    by_cases hw : Patience.IsWaitable x
    · rw [waited hw]
      simp [hw]
    · rw [refused hw]
      simp [hw, eq_comm]

/-- Settings can have a timeout that no lock takes: not-a-number and infinity pass for numbers that are not below
zero, and so do numbers that are too large. -/
theorem nan_isAccepted :
    (∃ s, ofEnvironment? [("LENDING_LOCK_TIMEOUT_SECONDS", "1e10")] = .ok s ∧
      (Locks.empty.hold "L1" s.waiting).2 = .error (.patience .tooLarge)) ∧
    (∃ s, ofEnvironment? [("LENDING_LOCK_TIMEOUT_SECONDS", "inf")] = .ok s ∧
      s.lockTimeout = some (.infinity false) ∧ (Locks.empty.hold "L1" s.waiting).2 = .error (.patience .tooLarge)) ∧
    (∃ s, ofEnvironment? [("LENDING_LOCK_TIMEOUT_SECONDS", "nan")] = .ok s ∧ s.lockTimeout = some .nan ∧
      (Locks.empty.hold "L1" s.waiting).2 = .error (.patience .notANumber)) := by
  exact ⟨⟨_, rfl, rfl⟩, ⟨_, rfl, rfl, rfl⟩, ⟨_, rfl, rfl, rfl⟩⟩

end Settings

end LoanLedger
