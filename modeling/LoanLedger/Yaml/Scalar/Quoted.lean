import LoanLedger.Text.Bytes
import LoanLedger.Yaml.Error
import LoanLedger.Yaml.Scalar.Plain

/-!
# Quoted scalars

* `Cursor.quoted style k` : the scalar between single or double quotes at `k`.

Between single quotes a quote is written twice; between double quotes a backslash begins an escape.
Line breaks are folded as in plain scalars, and a mark between documents may not come.
-/

namespace LoanLedger.Yaml

/-- The two sorts of quotes. -/
inductive QuoteStyle where
  | single
  | double
  deriving DecidableEq

def QuoteStyle.mark : QuoteStyle → Char
  | single => '\''
  | double => '"'

/-- The characters that stand for another one behind a backslash. -/
def escapes : List (Char × Char) := [
  ('0', '\x00'), ('a', '\x07'), ('b', '\x08'), ('t', '\t'), ('\t', '\t'), ('n', '\n'),
  ('v', '\x0b'), ('f', '\x0c'), ('r', '\r'), ('e', '\x1b'), (' ', ' '), ('"', '"'), ('\\', '\\'),
  ('/', '/'), ('N', '\x85'), ('_', '\xa0'), ('L', '\u2028'), ('P', '\u2029')]

/-- The characters that announce hexadecimal digits behind a backslash, with their number. -/
def escapeWidths : List (Char × Nat) := [('x', 2), ('u', 4), ('U', 8)]

namespace Cursor

/-- The number of so many hexadecimal digits. -/
def hexCode (width : Nat) (k : Cursor) : Except Error (Nat × Cursor) :=
  let ds := k.rest.take width
  if ds.length < width then .error .malformed
  else match Text.ofHexChars? ds with
    | some n => .ok (n, k.advanceBy width)
    | none => .error .malformed

/-- The second half of a character whose code is written as two units of 16 bits. -/
def lowUnit (k : Cursor) : Except Error (Nat × Cursor) :=
  match k.rest with
  | '\\' :: 'u' :: _ => do
    let (n, k) ← hexCode 4 (k.advanceBy 2)
    if 0xDC00 ≤ n && n < 0xE000 then pure (n - 0xDC00, k) else throw .malformed
  | _ => .error .malformed

/-- The character that hexadecimal digits name. A `String` holds no surrogates: a pair of them is taken for the
character that it encodes, and a single one is refused, where a text that may hold any code points would keep each as
it is. -/
def hexChar (width : Nat) (k : Cursor) : Except Error (Char × Cursor) := do
  let (n, k) ← k.hexCode width
  if 0x10FFFF < n then throw (.noCharacter n)
  if 0xD800 ≤ n && n < 0xE000 then
    if 0xDC00 ≤ n then throw .malformed
    let (m, k) ← k.lowUnit
    pure (Char.ofNat (0x10000 + (n - 0xD800) * 0x400 + m), k)
  else pure (Char.ofNat n, k)

/-- Skips the spaces at the start of a line, and empty lines, whose breaks are kept. -/
def quotedBreaks : Nat → Cursor → Except Error (List Char × Cursor)
  | 0, k => .ok ([], k)
  | fuel + 1, k =>
    if k.isAtMark then .error .malformed
    else
      let k := k.skip isSpace
      if isBreak k.peek then do
        let (b, k) := k.takeBreak
        let (bs, k) ← quotedBreaks fuel k
        pure (b ++ bs, k)
      else .ok ([], k)

/-- What an escape stands for, behind its backslash. A break of the line stands for nothing. -/
def escape (k : Cursor) : Except Error (List Char × Cursor) :=
  let c := k.peek
  match escapes.lookup c, escapeWidths.lookup c with
  | some e, _ => .ok ([e], k.advance)
  | none, some width => do
    let (e, k) ← k.advance.hexChar width
    pure ([e], k)
  | none, none =>
    if isBreak c then
      let k := k.takeBreak.2
      quotedBreaks (k.rest.length + 1) k
    else .error .malformed

/-- The characters up to the next gap or the closing quote. -/
def quotedRun (style : QuoteStyle) : Nat → Cursor → Except Error (List Char × Cursor)
  | 0, k => .ok ([], k)
  | fuel + 1, k =>
    let c := k.peek
    if isGap c then .ok ([], k)
    else if c = style.mark then
      if style = .single && k.peekNext = c then do
        let (cs, k) ← quotedRun style fuel (k.advanceBy 2)
        pure (c :: cs, k)
      else .ok ([], k)
    else if style = .double && c = '\\' then do
      let (e, k) ← k.advance.escape
      let (cs, k) ← quotedRun style fuel k
      pure (e ++ cs, k)
    else do
      let (cs, k) ← quotedRun style fuel k.advance
      pure (c :: cs, k)

/-- What stands between two words of a quoted scalar. -/
def quotedGap (k : Cursor) : Except Error (List Char × Cursor) := do
  let (spaces, k) := k.span isSpace
  if k.isAtEnd then throw .malformed
  if isBreak k.peek then
    let (first, k) := k.takeBreak
    let (breaks, k) ← quotedBreaks (k.rest.length + 1) k
    pure (foldBreaks first breaks, k)
  else pure (spaces, k)

/-- The words of a quoted scalar up to the closing quote. -/
def quotedWords (style : QuoteStyle) : Nat → Cursor → Except Error (List Char × Cursor)
  | 0, _ => .error .malformed
  | fuel + 1, k => do
    let (run, k) ← quotedRun style (k.rest.length + 1) k
    if k.peek = style.mark then pure (run, k.advance)
    else do
      let (gap, k) ← k.quotedGap
      let (more, k) ← quotedWords style fuel k
      pure (run ++ gap ++ more, k)

def quoted (style : QuoteStyle) (k : Cursor) : Except Error (List Char × Cursor) :=
  quotedWords style (k.rest.length + 1) k.advance

end Cursor

end LoanLedger.Yaml
