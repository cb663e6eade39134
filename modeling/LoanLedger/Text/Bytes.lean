/-!
# Bytes as text

* `hexDigit n` : the lower-case digit of `n`, for `n < 16`;
* `hexChars w n` : the last `w` hexadecimal digits of `n`, most significant first;
* `hexOfBytes bs` : two digits a byte;
* `hexValue? c` : the value of a hexadecimal digit, in either case;
* `base64Value? c` : the value of a digit to the base 64;
* `ofBase64? cs` : the bytes that digits to the base 64 write, four digits for three bytes. Other characters are
  skipped; the last group is filled up with equality signs, behind which nothing counts.
-/

namespace LoanLedger.Text

/-- The lower-case hexadecimal digit of a number below sixteen. -/
def hexDigit (n : Nat) : Char :=
  Char.ofNat (if n < 10 then 0x30 + n else 0x57 + n)

/-- The last `w` hexadecimal digits of `n`. -/
def hexChars : Nat → Nat → List Char
  | 0, _ => []
  | w + 1, n => hexChars w (n / 16) ++ [hexDigit (n % 16)]

/-- Two lower-case digits for each byte. -/
def hexOfBytes (bs : List UInt8) : String :=
  String.ofList (bs.flatMap fun b => hexChars 2 b.toNat)

def hexValue? (c : Char) : Option Nat :=
  let n := c.toNat
  if 0x30 ≤ n && n ≤ 0x39 then some (n - 0x30)
  else if 0x61 ≤ n && n ≤ 0x66 then some (n - 0x57)
  else if 0x41 ≤ n && n ≤ 0x46 then some (n - 0x37)
  else none

/-- The number written by hexadecimal digits, or nothing when there is another character. -/
def ofHexChars? (cs : List Char) : Option Nat :=
  cs.foldlM (fun n c => (hexValue? c).map (16 * n + ·)) 0

/-- The bytes written two digits a byte. -/
def bytesOfHex? : List Char → Option (List UInt8)
  | [] => some []
  | a :: b :: cs => do
    let n ← ofHexChars? [a, b]
    let bs ← bytesOfHex? cs
    pure (UInt8.ofNat n :: bs)
  | [_] => none

/-! ## Base 64 -/

def base64Value? (c : Char) : Option Nat :=
  if 'A' ≤ c && c ≤ 'Z' then some (c.toNat - 0x41)
  else if 'a' ≤ c && c ≤ 'z' then some (c.toNat - 0x61 + 26)
  else if '0' ≤ c && c ≤ '9' then some (c.toNat - 0x30 + 52)
  else if c = '+' then some 62
  else if c = '/' then some 63
  else none

/-- Reads on within a group: `count` digits of it are there, `bits` is what the last one leaves for
the next byte, and `pads` is the number of equality signs just before. -/
def base64From : (count bits pads : Nat) → List Char → Option (List UInt8)
  | count, _, _, [] => if count = 0 then some [] else none
  | count, bits, pads, c :: cs =>
    if c = '=' then
      if count < 2 then base64From count bits pads cs
      else if 3 ≤ count + pads then some []
      else base64From count bits (pads + 1) cs
    else match base64Value? c with
      | none => base64From count bits pads cs
      | some d =>
        let byte (n : Nat) : Option (List UInt8) → Option (List UInt8) :=
          Option.map (UInt8.ofNat n :: ·)
        match count with
        | 0 => base64From 1 d 0 cs
        | 1 => byte (bits * 4 + d / 16) (base64From 2 (d % 16) 0 cs)
        | 2 => byte (bits * 16 + d / 4) (base64From 3 (d % 4) 0 cs)
        | _ => byte (bits * 64 + d) (base64From 0 0 0 cs)

def ofBase64? (cs : List Char) : Option (List UInt8) :=
  base64From 0 0 0 cs

end LoanLedger.Text
