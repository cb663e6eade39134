/-!
# Code points and UTF-16 units

* `Points` : a text as code points, surrogates among them, which no character has and a `String` cannot hold;
  `Points.ofString`, `Points.toString?` : the code points of characters, and back;
* `Units` : a text as UTF-16 units; `Points.units` : a code point beyond the first plane is two units;
* `Points.ofUnits` : a high surrogate directly before a low one makes one code point, all else stands for itself.
-/

namespace LoanLedger.Text

/-- A code point. -/
abbrev Point := Fin 0x110000

abbrev Points := List Point

abbrev Unit16 := Fin 0x10000

abbrev Units := List Unit16

/-! ## Characters -/

def Point.ofChar (c : Char) : Point :=
  ⟨c.toNat, by
    rcases c.valid with h | ⟨-, h⟩
    · exact Nat.lt_trans h (by decide)
    · exact h⟩

def Point.char? (p : Point) : Option Char :=
  if h : Nat.isValidChar p.val then some (Char.ofNatAux p.val h) else none

def Points.ofString (s : String) : Points := s.toList.map Point.ofChar

def Points.toString? (ps : Points) : Option String :=
  (ps.mapM Point.char?).map String.ofList

/-! ## Units -/

def Point.units (p : Point) : Units :=
  if h : p.val < 0x10000 then [⟨p.val, h⟩]
  else [⟨0xD800 + (p.val - 0x10000) / 0x400, by omega⟩, ⟨0xDC00 + (p.val - 0x10000) % 0x400, by omega⟩]

def Points.units (ps : Points) : Units := ps.flatMap Point.units

def isHighSurrogate (n : Nat) : Bool := 0xD800 ≤ n && n < 0xDC00

def isLowSurrogate (n : Nat) : Bool := 0xDC00 ≤ n && n < 0xE000

def Unit16.point (u : Unit16) : Point := u.castLE (by decide)

def Point.ofPair (high low : Nat) : Point :=
  Fin.ofNat 0x110000 (0x10000 + (high - 0xD800) * 0x400 + (low - 0xDC00))

def Points.ofUnits : Units → Points
  | [] => []
  | [u] => [u.point]
  | u :: v :: us =>
    if isHighSurrogate u.val && isLowSurrogate v.val then .ofPair u.val v.val :: ofUnits us
    else u.point :: ofUnits (v :: us)

end LoanLedger.Text
