import LoanLedger.Calendar.Error
import LoanLedger.Calendar.Iso

/-!
# Reading ISO 8601 text

* `separatorAt cs` : where the day ends and one character of any kind separates it from the time;
* `readDate? cs` : `YYYY-MM-DD`, `YYYYMMDD`, `YYYY-Www`, `YYYYWww`, `YYYY-Www-D` or `YYYYWwwD`;
* `readClock? cs` : hours, perhaps minutes and seconds, perhaps digits of a second after a point, a
  comma or a further colon, cut to six;
* `Timestamp.ofIso? s` : the timestamp that `s` writes.

The reader is lenient where a sign ends the time of day: one ASCII character there that continues
nothing is passed over, and an offset below a second counts as zero.
-/

namespace LoanLedger.Calendar

def asciiDigit? (c : Char) : Option Nat :=
  if c.isDigit then some (c.toNat - 0x30) else none

/-- Reads exactly `n` digits. -/
def readDigits? : Nat → List Char → Option (Nat × List Char)
  | n, cs => go n 0 cs
where
  /-- Reads the remaining digits after a number read so far. -/
  go : Nat → Nat → List Char → Option (Nat × List Char)
  | 0, acc, cs => some (acc, cs)
  | _ + 1, _, [] => none
  | n + 1, acc, c :: cs =>
    match asciiDigit? c with
    | some d => go n (10 * acc + d) cs
    | none => none

/-- The position of the separator between day and time, told from the fifth character on. A text with
week number, hyphen and two digits more is taken to have its separator before those digits. -/
def separatorAt (cs : List Char) : Nat :=
  let at? (i : Nat) := cs[i]?
  if cs.length = 7 then 7
  else if at? 4 = some '-' then
    if at? 5 = some 'W' then
      if at? 8 = some '-' then
        if (at? 10).any Char.isDigit then 8 else 10
      else 8
    else 10
  else if at? 4 = some 'W' then
    let digits := ((cs.drop 7).takeWhile Char.isDigit).length
    if digits < 2 then 7 + digits else if digits % 2 = 1 then 7 else 8
  else 8

inductive WrittenDay where
  | monthDay (year month day : Nat)
  | weekDay (year week day : Nat)

/-- The rest of the text after a hyphen, which the same text must have had before. -/
def skipHyphen? (hyphens : Bool) : List Char → Option (List Char)
  | '-' :: cs => if hyphens then some cs else none
  | cs => if hyphens then none else some cs

/-- The day that the characters write; the day of a week may be left out. -/
def readDate? (cs : List Char) : Option WrittenDay := do
  let (year, cs) ← readDigits? 4 cs
  let (hyphens, cs) := match cs with
    | '-' :: r => (true, r)
    | r => (false, r)
  match cs with
  | 'W' :: cs => do
    let (week, cs) ← readDigits? 2 cs
    if cs.isEmpty then pure (.weekDay year week 1)
    else do
      let cs ← skipHyphen? hyphens cs
      let (day, _) ← readDigits? 1 cs
      pure (.weekDay year week day)
  | _ => do
    let (month, cs) ← readDigits? 2 cs
    let cs ← skipHyphen? hyphens cs
    let (day, _) ← readDigits? 2 cs
    pure (.monthDay year month day)

/-- The numbers of a time of day or of an offset, not yet checked. -/
structure WrittenTime where
  hour : Nat
  minute : Nat
  second : Nat
  micro : Nat

/-- The value of up to six digits behind the point. -/
def fraction? (cs : List Char) : Option (Nat × List Char) := do
  let n := min 6 cs.length
  let (value, rest) ← readDigits? n cs
  pure (value * Nat.pow 10 (6 - n), rest.dropWhile Char.isDigit)

/-- Reads two digits a component, up to three of them, then digits of a second. The numbers come back
in order, and a flag that says whether something was left over; only a character of a single byte may
be. -/
def readComponents? : Nat → Bool → List Char → Option (List Nat × Nat × Bool)
  | 0, _, cs => do
    let (micro, rest) ← fraction? cs
    pure ([], micro, (rest.head?.getD '\x00') ≠ '\x00')
  | n + 1, colons, cs => do
    let (value, cs) ← readDigits? 2 cs
    match cs with
    | [] => pure ([value], 0, false)
    | [c] => if 0x80 ≤ c.toNat then none else pure ([value], 0, c ≠ '\x00')
    | c :: d :: cs => do
      let colons := if n = 2 then c = ':' else colons
      if colons && c = ':' then
        let (values, micro, left) ← readComponents? n colons (d :: cs)
        pure (value :: values, micro, left)
      else if c = '.' || c = ',' then
        let (micro, rest) ← fraction? (d :: cs)
        pure ([value], micro, (rest.head?.getD '\x00') ≠ '\x00')
      else if colons then none
      else
        let (values, micro, left) ← readComponents? n colons (c :: d :: cs)
        pure (value :: values, micro, left)

def readClock? (cs : List Char) : Option (WrittenTime × Bool) := do
  let (values, micro, left) ← readComponents? 3 true cs
  pure (⟨values.getD 0 0, values.getD 1 0, values.getD 2 0, micro⟩, left)

/-- Whether a character ends the time of day and begins the offset. -/
def isZoneMark (c : Char) : Bool :=
  c = '+' || c = '-' || c = 'Z'

/-- The microseconds of an offset; one below a second counts as zero. -/
def WrittenTime.offsetMicros (t : WrittenTime) (negative : Bool) : Int :=
  let seconds := (t.hour * 60 + t.minute) * 60 + t.second
  if seconds = 0 then 0
  else
    let n : Int := seconds * 1000000 + t.micro
    if negative then -n else n

/-- The time of day and the microseconds of the offset, if the characters have one. -/
def readTime? (cs : List Char) : Option (WrittenTime × Option Int) := do
  let (time, left) ← readClock? (cs.takeWhile (!isZoneMark ·))
  match cs.dropWhile (!isZoneMark ·) with
  | [] => if left then none else pure (time, none)
  | 'Z' :: rest => if (rest.head?.getD '\x00') ≠ '\x00' then none else pure (time, some 0)
  | sign :: rest => do
    let (offset, left) ← readClock? rest
    if left then none else pure (time, some (offset.offsetMicros (sign = '-')))

/-- The numbers of the year, month and day that a written day names; the weeks of a year must exist,
a year 0 has no months, and the last week of the year 9999 reaches into the year 10000. -/
def WrittenDay.resolve? : WrittenDay → Option (Nat × Nat × Nat)
  | .monthDay y m d => some (y, m, d)
  | .weekDay y w d =>
    if w = 0 || 53 < w || (w = 53 && !hasLongYear y) || d = 0 || 7 < d then none
    else if y = 0 then some (1, 0, 1)
    else
      match Date.ofOrdinal? (weekOneMonday y + (w - 1) * 7 + (d - 1)) with
      | some date => some (date.year, date.month, date.day)
      | none => some (10000, 1, 1)

/-- The first thing that is wrong with the numbers of a day. -/
def checkDate (year month day : Nat) : Except Error Date :=
  match Date.ofYmd? year month day with
  | some d => .ok d
  | none =>
    if year < 1 || 9999 < year then .error (.yearOutOfRange year)
    else if month < 1 || 12 < month then .error .monthOutOfRange
    else .error .dayOutOfRange

/-- The first thing that is wrong with the numbers of a time. -/
def checkTime (t : WrittenTime) : Except Error TimeOfDay :=
  match TimeOfDay.of? t.hour t.minute t.second t.micro with
  | some t => .ok t
  | none =>
    if 24 ≤ t.hour then .error .hourOutOfRange
    else if 60 ≤ t.minute then .error .minuteOutOfRange
    else .error .secondOutOfRange

/-- The numbers that a text writes: the day, the time of day and the offset. -/
def readTimestamp? (cs : List Char) : Option ((Nat × Nat × Nat) × WrittenTime × Option Int) := do
  if cs.length < 7 then none
  let i := separatorAt cs
  let day ← (← readDate? (cs.take i)).resolve?
  match cs.drop i with
  | [] => pure (day, ⟨0, 0, 0, 0⟩, none)
  | _ :: rest => do
    let (time, offset) ← readTime? rest
    pure (day, time, offset)

/-- The timestamp that a text writes. -/
def Timestamp.ofIso? (s : String) : Except Error Timestamp :=
  match readTimestamp? s.toList with
  | none => .error (.malformed s)
  | some ((year, month, day), time, micros) => do
    let offset ← match micros with
      | none => pure none
      | some n => match Offset.ofMicros? n with
        | some o => pure (some o)
        | none => .error (.offsetOutOfRange n)
    let date ← checkDate year month day
    let time ← checkTime time
    pure ⟨date, time, offset⟩

end LoanLedger.Calendar
