/-!
# Dates

* `Date` : a day of the proleptic Gregorian calendar in the years 1 to 9999;
* `Date.ofYmd? y m d` : the day of that year, month and day number, if there is one;
* `Date.ordinal d` : the number of `d` in the count that starts with 1 for the first day of year 1;
* `Date.ofOrdinal? n` : the day with that number;
* `weekOneMonday y` : the number of the Monday of the first week of `y`.
-/

namespace LoanLedger.Calendar

def isLeap (year : Nat) : Bool :=
  year % 4 = 0 && (year % 100 ≠ 0 || year % 400 = 0)

def daysInMonth (year month : Nat) : Nat :=
  if month = 2 then if isLeap year then 29 else 28
  else if month = 4 || month = 6 || month = 9 || month = 11 then 30
  else 31

/-- The year, month and day number name a day. -/
def IsDay (year month day : Nat) : Prop :=
  (1 ≤ year ∧ year ≤ 9999) ∧ (1 ≤ month ∧ month ≤ 12) ∧ 1 ≤ day ∧ day ≤ daysInMonth year month

instance (year month day : Nat) : Decidable (IsDay year month day) :=
  inferInstanceAs (Decidable (_ ∧ _))

structure Date where
  year : Nat
  month : Nat
  day : Nat
  isDay : IsDay year month day
  deriving DecidableEq

namespace Date

def ofYmd? (year month day : Nat) : Option Date :=
  if h : IsDay year month day then some ⟨year, month, day, h⟩ else none

def daysBeforeYear (year : Nat) : Nat :=
  let y := year - 1
  y * 365 + y / 4 - y / 100 + y / 400

def daysBeforeMonth (year month : Nat) : Nat :=
  ((List.range month).drop 1).foldl (fun n m => n + daysInMonth year m) 0

def ordinal (d : Date) : Nat :=
  daysBeforeYear d.year + daysBeforeMonth d.year d.month + d.day

/-- The month and day number of the `n`-th day of a year, counted from 0. -/
def monthAndDay (year : Nat) (n : Nat) : Nat × Nat :=
  let month := ((List.range 13).drop 1).foldl
    (fun found m => if daysBeforeMonth year m ≤ n then m else found) 1
  (month, n - daysBeforeMonth year month + 1)

/-- The year of the day with a number, and the days of that year before it. Cycles of 400, 100, 4
years and 1 year are split off in turn; the last day of a long cycle belongs to its last year. -/
def yearAndRest (ordinal : Nat) : Nat × Nat :=
  let n := ordinal - 1
  let n400 := n / 146097
  let n := n % 146097
  let n100 := n / 36524
  let n := n % 36524
  let n4 := n / 1461
  let n := n % 1461
  let n1 := n / 365
  let year := n400 * 400 + n100 * 100 + n4 * 4 + n1 + 1
  if n1 = 4 || n100 = 4 then (year - 1, 365) else (year, n % 365)

def ofOrdinal? (n : Int) : Option Date :=
  if n < 1 || 3652059 < n then none
  else
    let (year, rest) := yearAndRest n.toNat
    let (month, day) := monthAndDay year rest
    ofYmd? year month day

end Date

/-- The weekday of the day with a number: 0 for Monday. -/
def weekdayOf (ordinal : Nat) : Nat :=
  (ordinal + 6) % 7

/-- The number of the Monday that begins the first week of a year, the week with its first
Thursday. -/
def weekOneMonday (year : Nat) : Int :=
  let first := Date.daysBeforeYear year + 1
  let weekday := weekdayOf first
  if 3 < weekday then (first : Int) - weekday + 7 else (first : Int) - weekday

/-- Whether a year has 53 weeks: it begins on a Thursday, or on a Wednesday and is a leap year. -/
def hasLongYear (year : Nat) : Bool :=
  let weekday := weekdayOf (Date.daysBeforeYear year + 1)
  weekday = 3 || (weekday = 2 && isLeap year)

end LoanLedger.Calendar
