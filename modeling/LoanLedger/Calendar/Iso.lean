import LoanLedger.Calendar.Timestamp

/-!
# ISO 8601 text of dates and timestamps

* `Date.iso d` : `YYYY-MM-DD`;
* `Offset.isoChars o` : the sign and `HH:MM`, then seconds and six digits of a second where they are
  not zero;
* `Timestamp.iso t` : day, the letter `T`, time of day, offset; six digits of a second where they are
  not zero.
-/

namespace LoanLedger.Calendar

/-- The last `w` decimal digits of `n`. -/
def padded : Nat → Nat → List Char
  | 0, _ => []
  | w + 1, n => padded w (n / 10) ++ [Char.ofNat (0x30 + n % 10)]

/-- A point and six digits, or nothing for zero. -/
def microChars (micro : Nat) : List Char :=
  if micro = 0 then [] else '.' :: padded 6 micro

/-- The day as `YYYY-MM-DD`. -/
def Date.isoChars (d : Date) : List Char :=
  padded 4 d.year ++ '-' :: padded 2 d.month ++ '-' :: padded 2 d.day

/-- The day as `YYYY-MM-DD`. -/
def Date.iso (d : Date) : String :=
  String.ofList d.isoChars

/-- The time of day as `HH:MM:SS`, with six digits of a second where they are not zero. -/
def TimeOfDay.isoChars (t : TimeOfDay) : List Char :=
  padded 2 t.hour ++ ':' :: padded 2 t.minute ++ ':' :: padded 2 t.second ++ microChars t.micro

/-- The offset as a sign and `HH:MM`, followed by what is below a minute where that is not zero. -/
def Offset.isoChars (o : Offset) : List Char :=
  let n := o.micros.natAbs
  let seconds := n / 1000000
  let micro := n % 1000000
  (if o.micros < 0 then '-' else '+') :: padded 2 (seconds / 3600) ++
    ':' :: padded 2 (seconds / 60 % 60) ++
    (if seconds % 60 = 0 && micro = 0 then [] else ':' :: padded 2 (seconds % 60) ++ microChars micro)

/-- The timestamp with a separator of one's choice between day and time. -/
def Timestamp.isoCharsWith (separator : Char) (t : Timestamp) : List Char :=
  t.date.isoChars ++ separator :: t.time.isoChars ++ t.offset.elim [] Offset.isoChars

def Timestamp.iso (t : Timestamp) : String :=
  String.ofList (t.isoCharsWith 'T')

/-- The timestamp with a space between day and time. -/
def Timestamp.spaced (t : Timestamp) : String :=
  String.ofList (t.isoCharsWith ' ')

end LoanLedger.Calendar
