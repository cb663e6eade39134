import LoanLedger.Calendar.IsoReader
import LoanLedger.Yaml.Cursor
import LoanLedger.Yaml.Error

/-!
# Times in documents

* `WrittenTime.read? cs` : a day or a time, in the form of years to seconds;
* `isTimeForm cs` : whether a plain scalar has the form of a time;
* `timeOf s` : the day or the time that a scalar writes.
-/

namespace LoanLedger.Yaml

structure WrittenHour where
  hour : Nat
  minute : Nat
  second : Nat
  fraction : List Char
  /-- The minutes between the local time and UTC, if they are told. -/
  offset : Option Int

structure WrittenTime where
  year : Nat
  month : List Char
  day : List Char
  hour : Option WrittenHour

/-- A run of digits of a least and a greatest length, and what follows. -/
def takeDigits? (least most : Nat) (cs : List Char) : Option (List Char × List Char) :=
  let ds := (cs.take most).takeWhile Char.isDigit
  if ds.length < least then none else some (ds, cs.drop ds.length)

def behind? (c : Char) : List Char → Option (List Char)
  | d :: ds => if c = d then some ds else none
  | [] => none

/-- What follows the separator of day and hour: a letter, or spaces and tabs. -/
def dropSeparator? : List Char → Option (List Char)
  | c :: cs =>
    if c = 'T' || c = 't' then some cs
    else if isSpace c then some (cs.dropWhile isSpace)
    else none
  | [] => none

/-- The minutes between the local time and UTC, which need not be told. -/
def readOffset? : List Char → Option (Option Int)
  | [] => some none
  | cs => match cs.dropWhile isSpace with
    | ['Z'] => some (some 0)
    | s :: cs => do
      if s ≠ '-' && s ≠ '+' then none
      let (hours, rest) ← takeDigits? 1 2 cs
      let minutes ← match rest with
        | [] => some []
        | rest => do
          let (minutes, rest) ← takeDigits? 2 2 (← behind? ':' rest)
          if rest.isEmpty then some minutes else none
      let n : Int := Numeral.digitsValue hours * 60 + Numeral.digitsValue minutes
      pure (some (if s = '-' then -n else n))
    | [] => none

def WrittenHour.read? (cs : List Char) : Option WrittenHour := do
  let (hour, cs) ← takeDigits? 1 2 cs
  let (minute, cs) ← takeDigits? 2 2 (← behind? ':' cs)
  let (second, cs) ← takeDigits? 2 2 (← behind? ':' cs)
  let (fraction, cs) := match cs with
    | '.' :: cs => (cs.takeWhile Char.isDigit, cs.dropWhile Char.isDigit)
    | cs => ([], cs)
  let offset ← readOffset? cs
  pure ⟨Numeral.digitsValue hour, Numeral.digitsValue minute, Numeral.digitsValue second, fraction,
    offset⟩

/-- The day or the time that a text writes. -/
def WrittenTime.read? (cs : List Char) : Option WrittenTime := do
  let (year, cs) ← takeDigits? 4 4 cs
  let (month, cs) ← takeDigits? 1 2 (← behind? '-' cs)
  let (day, cs) ← takeDigits? 1 2 (← behind? '-' cs)
  let hour ← if cs.isEmpty then some none
    else (dropSeparator? cs).bind fun cs => (WrittenHour.read? cs).map some
  pure ⟨Numeral.digitsValue year, month, day, hour⟩

/-- Whether a text has the form of a time. A day alone has two digits for the month and the day. -/
def isTimeForm (cs : List Char) : Bool :=
  match WrittenTime.read? cs with
  | some t => t.hour.isSome || (t.month.length = 2 && t.day.length = 2)
  | none => false

/-- The microseconds of a fraction of a second; further digits are dropped. -/
def microsOf (fraction : List Char) : Nat :=
  let ds := fraction.take 6
  Numeral.digitsValue ds * Nat.pow 10 (6 - ds.length)

def offsetOf (minutes : Int) : Except Calendar.Error Calendar.Offset :=
  let micros := minutes * 60000000
  match Calendar.Offset.ofMicros? micros with
  | some o => .ok o
  | none => .error (.offsetOutOfRange micros)

/-- The value of a day or a time. The offset is checked first, then the day, then the hour. -/
def WrittenTime.value? (t : WrittenTime) : Except Calendar.Error Value := do
  let day := Calendar.checkDate t.year (Numeral.digitsValue t.month) (Numeral.digitsValue t.day)
  match t.hour with
  | none => day.map .date
  | some h =>
    let offset ← h.offset.mapM offsetOf
    let date ← day
    let time ← Calendar.checkTime ⟨h.hour, h.minute, h.second, microsOf h.fraction⟩
    pure (.time ⟨date, time, offset⟩)

def timeOf (cs : List Char) : Except Error Value :=
  match WrittenTime.read? cs with
  | some t => t.value?.mapError .time
  | none => .error .noTime

end LoanLedger.Yaml
