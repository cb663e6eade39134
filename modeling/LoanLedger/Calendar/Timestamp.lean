import LoanLedger.Calendar.Date

/-!
# Times of day, offsets and timestamps

* `TimeOfDay` : hour, minute, second and microsecond;
* `Offset` : the distance of a local time from UTC, in microseconds, below one day;
* `Timestamp` : a day and a time of day, with an offset or without one;
* `Timestamp.addMicros? t n` : the local time `n` microseconds later;
* `Timestamp.toUtc? t` : the same instant with offset zero, where a time without an offset is taken
  as UTC;
* `Timestamp.instant t` : microseconds since the first instant of year 1 in UTC.
-/

namespace LoanLedger.Calendar

/-- The numbers name a time of day. -/
def IsTime (hour minute second micro : Nat) : Prop :=
  hour < 24 ∧ minute < 60 ∧ second < 60 ∧ micro < 1000000

instance (hour minute second micro : Nat) : Decidable (IsTime hour minute second micro) :=
  inferInstanceAs (Decidable (_ ∧ _))

structure TimeOfDay where
  hour : Nat
  minute : Nat
  second : Nat
  micro : Nat
  isTime : IsTime hour minute second micro
  deriving DecidableEq

namespace TimeOfDay

def midnight : TimeOfDay := ⟨0, 0, 0, 0, by decide⟩

def of? (hour minute second micro : Nat) : Option TimeOfDay :=
  if h : IsTime hour minute second micro then some ⟨hour, minute, second, micro, h⟩ else none

def toMicros (t : TimeOfDay) : Nat :=
  ((t.hour * 60 + t.minute) * 60 + t.second) * 1000000 + t.micro

end TimeOfDay

def microsPerDay : Nat := 86400000000

/-- The time of day that many microseconds after midnight, whole days dropped. -/
def TimeOfDay.ofMicros (n : Nat) : TimeOfDay :=
  let s := n / 1000000
  ⟨s / 3600 % 24, s / 60 % 60, s % 60, n % 1000000,
    Nat.mod_lt _ (by decide), Nat.mod_lt _ (by decide), Nat.mod_lt _ (by decide),
    Nat.mod_lt _ (by decide)⟩

/-- The distance of a local time from UTC, less than a day. -/
structure Offset where
  micros : Int
  bound : micros.natAbs < microsPerDay
  deriving DecidableEq

namespace Offset

def utc : Offset := ⟨0, by decide⟩

def ofMicros? (n : Int) : Option Offset :=
  if h : n.natAbs < microsPerDay then some ⟨n, h⟩ else none

end Offset

/-- A day and a time of day, of a place with a known offset from UTC or of an unknown one. -/
structure Timestamp where
  date : Date
  time : TimeOfDay
  offset : Option Offset
  deriving DecidableEq

namespace Timestamp

/-- Microseconds of the local time since the first instant of year 1. -/
def localMicros (t : Timestamp) : Nat :=
  (t.date.ordinal - 1) * microsPerDay + t.time.toMicros

/-- The local time that many microseconds after the first instant of year 1. -/
def ofLocalMicros? (n : Int) (offset : Option Offset) : Option Timestamp := do
  let date ← Date.ofOrdinal? (n.fdiv microsPerDay + 1)
  pure ⟨date, TimeOfDay.ofMicros (n.fmod microsPerDay).toNat, offset⟩

/-- The local time `n` microseconds later, within the years of the calendar. -/
def addMicros? (t : Timestamp) (n : Int) : Option Timestamp :=
  if n = 0 then some t else ofLocalMicros? (t.localMicros + n) t.offset

def isAware (t : Timestamp) : Bool :=
  t.offset.isSome

/-- The instant as microseconds since the first instant of year 1 in UTC; an unknown offset counts as
zero. -/
def instant (t : Timestamp) : Int :=
  t.localMicros - (t.offset.elim 0 Offset.micros)

/-- The same instant in UTC; an unknown offset counts as zero. Nothing when that leaves the years of
the calendar. -/
def toUtc? (t : Timestamp) : Option Timestamp :=
  match t.offset with
  | none => some { t with offset := some Offset.utc }
  | some o =>
    if o.micros = 0 then some t
    else ofLocalMicros? t.instant (some Offset.utc)

end LoanLedger.Calendar.Timestamp
