/-!
# Positions in a document

* `isBreak`, `isGap` : the characters that end a line, and those that separate words;
* `Cursor` : what is left of a text, with the line, the column and the number of characters passed;
* `Cursor.advance k` : the position one character on; a byte order mark takes no column;
* `Cursor.span p k` : the longest run of characters with `p`, and the position behind it;
* `Cursor.takeBreak k` : the line break at `k` in its written form;
* `Cursor.isAtMark k` : whether a mark between documents stands at `k`;
* `Cursor.ofText? s` : the start of a text in which every character may stand.

The end of a text reads as NUL, which may not stand in one.
-/

namespace LoanLedger.Yaml

def isBreak (c : Char) : Bool :=
  c = '\n' || c = '\x85' || c = '\u2028' || c = '\u2029'

def isLineEnd (c : Char) : Bool :=
  c = '\x00' || isBreak c

def isSpace (c : Char) : Bool :=
  c = ' ' || c = '\t'

/-- Whether a character, or the end of the text, separates words. -/
def isGap (c : Char) : Bool :=
  isSpace c || isLineEnd c

def isNameChar (c : Char) : Bool :=
  c.isAlphanum || c = '-' || c = '_'

/-- Whether a character may stand in a text. -/
def isAllowed (c : Char) : Bool :=
  let n := c.toNat
  n = 9 || n = 10 || n = 13 || (0x20 ≤ n && n ≤ 0x7E) || n = 0x85 || (0xA0 ≤ n && n ≤ 0xD7FF) ||
    (0xE000 ≤ n && n ≤ 0xFFFD) || 0x10000 ≤ n

/-- Writes every end of a line, CR, LF or both, as LF. -/
def unifyBreaks : List Char → List Char
  | '\r' :: '\n' :: cs => '\n' :: unifyBreaks cs
  | '\r' :: cs => '\n' :: unifyBreaks cs
  | c :: cs => c :: unifyBreaks cs
  | [] => []

structure Cursor where
  rest : List Char
  line : Nat
  column : Nat
  passed : Nat

namespace Cursor

def peek (k : Cursor) : Char :=
  k.rest.headD '\x00'

def peekNext (k : Cursor) : Char :=
  (k.rest.drop 1).headD '\x00'

def isAtEnd (k : Cursor) : Bool :=
  k.rest.isEmpty

def advance (k : Cursor) : Cursor :=
  match k.rest with
  | [] => k
  | c :: cs =>
    if isBreak c then ⟨cs, k.line + 1, 0, k.passed + 1⟩
    else ⟨cs, k.line, if c = '\uFEFF' then k.column else k.column + 1, k.passed + 1⟩

def advanceBy : Nat → Cursor → Cursor
  | 0, k => k
  | n + 1, k => advanceBy n k.advance

/-- The longest run of characters with a property, and the position behind it. -/
def span (p : Char → Bool) (k : Cursor) : List Char × Cursor :=
  let run := k.rest.takeWhile p
  (run, k.advanceBy run.length)

/-- The position behind a run of characters with a property. -/
def skip (p : Char → Bool) (k : Cursor) : Cursor :=
  (k.span p).2

/-- The line break at a position, nothing if there is none. The two breaks of Unicode stay what they
are, all others become a line feed. -/
def takeBreak (k : Cursor) : List Char × Cursor :=
  let c := k.peek
  if c = '\n' || c = '\x85' then (['\n'], k.advance)
  else if isBreak c then ([c], k.advance)
  else ([], k)

/-- Whether three characters stand at a position with a gap behind them. -/
def hasMark (mark : Char) (k : Cursor) : Bool :=
  match k.rest with
  | a :: b :: c :: cs => a = mark && b = mark && c = mark && isGap (cs.headD '\x00')
  | _ => false

def isAtMark (k : Cursor) : Bool :=
  k.hasMark '-' || k.hasMark '.'

def skipComment (k : Cursor) : Cursor :=
  if k.peek = '#' then k.skip (!isBreak ·) else k

/-- Skips what may stand behind an indicator on its line, spaces and a comment, with the line
break; nothing when there is more. -/
def finishLine? (k : Cursor) : Option Cursor :=
  let k := (k.skip (· = ' ')).skipComment
  if isLineEnd k.peek then some k.takeBreak.2 else none

def ofText? (s : String) : Option Cursor :=
  let cs := unifyBreaks s.toList
  if cs.all isAllowed then some ⟨cs, 0, 0, 0⟩ else none

end Cursor

end LoanLedger.Yaml
