import LoanLedger.Yaml.Error
import LoanLedger.Yaml.Cursor

/-!
# Block scalars

* `BlockStyle` : whether line breaks are kept or folded;
* `Chomp` : what becomes of the line breaks at the end;
* `Cursor.block style margin k` : the block scalar at `k`, whose lines are indented beyond the block
  around it.

Where the header does not tell the indentation, the first line with content does.
-/

namespace LoanLedger.Yaml

inductive BlockStyle where
  | literal
  | folded
  deriving DecidableEq

/-- What becomes of the line breaks at the end of a block scalar. -/
inductive Chomp where
  | strip
  | clip
  | keep
  deriving DecidableEq

/-- The indicator of the treatment of line breaks at the end. -/
def Chomp.ofChar? (c : Char) : Option Chomp :=
  if c = '-' then some strip else if c = '+' then some keep else none

structure BlockLines where
  text : List Char
  /-- The break behind the last line with content. -/
  last : List Char
  empty : List Char
  next : Cursor

namespace Cursor

def indentDigit (k : Cursor) : Except Error (Option Nat × Cursor) :=
  if k.peek.isDigit then
    let n := k.peek.toNat - 0x30
    if n = 0 then .error .malformed else .ok (some n, k.advance)
  else .ok (none, k)

/-- The indicators of a block scalar, in either order. -/
def blockHeader (k : Cursor) : Except Error (Chomp × Option Nat × Cursor) := do
  match Chomp.ofChar? k.peek with
  | some chomp =>
    let (indent, k) ← k.advance.indentDigit
    pure (chomp, indent, k)
  | none =>
    let (indent, k) ← k.indentDigit
    match indent, Chomp.ofChar? k.peek with
    | some n, some chomp => pure (chomp, some n, k.advance)
    | _, _ => pure (.clip, indent, k)

def skipIndent (column : Nat) (k : Cursor) : Cursor :=
  k.advanceBy ((k.rest.take (column - k.column)).takeWhile (· = ' ')).length

/-- Skips empty lines and the indentation of the next one; the breaks are kept. -/
def blockBreaks (indent : Nat) : Nat → Cursor → List Char × Cursor
  | 0, k => ([], k)
  | fuel + 1, k =>
    let k := k.skipIndent indent
    if isBreak k.peek then
      let (b, k) := k.takeBreak
      let (bs, k) := blockBreaks indent fuel k
      (b ++ bs, k)
    else ([], k)

/-- Skips spaces and line breaks; the breaks are kept, and the farthest column is told. -/
def blockLead : Nat → Nat → Cursor → List Char × Nat × Cursor
  | 0, far, k => ([], far, k)
  | fuel + 1, far, k =>
    if k.peek = ' ' then
      let k := k.advance
      blockLead fuel (max far k.column) k
    else if isBreak k.peek then
      let (b, k) := k.takeBreak
      let (bs, far, k) := blockLead fuel far k
      (b ++ bs, far, k)
    else ([], far, k)

/-- The lines from a position on, behind the breaks of empty lines. A folded break between two lines
that begin with content is a space, or nothing where empty lines follow. -/
def blockLines (style : BlockStyle) (indent : Nat) : Nat → List Char → Cursor → BlockLines
  | 0, breaks, k => ⟨[], [], breaks, k⟩
  | fuel + 1, breaks, k =>
    if k.column = indent && !k.isAtEnd then
      let folds := style = .folded && !isSpace k.peek
      let (line, k) := k.span (!isBreak ·)
      let (last, k) := k.takeBreak
      let (empty, k) := blockBreaks indent (k.rest.length + 1) k
      if k.column = indent && !k.isAtEnd then
        let glue := if folds && last = ['\n'] && !isSpace k.peek then
            if empty.isEmpty then [' '] else []
          else last
        let tail := blockLines style indent fuel empty k
        { tail with text := breaks ++ line ++ glue ++ tail.text }
      else ⟨breaks ++ line, last, empty, k⟩
    else ⟨[], [], breaks, k⟩

/-- The block scalar at a position. -/
def block (style : BlockStyle) (margin : Nat) (k : Cursor) : Except Error (List Char × Cursor) := do
  let (chomp, digit, k) ← k.advance.blockHeader
  if k.peek = '#' then throw .malformed
  let some k := k.finishLine? | throw .malformed
  let least := max 1 margin
  let fuel := k.rest.length + 1
  let (indent, breaks, k) := match digit with
    | some n =>
      let indent := least + n - 1
      (indent, blockBreaks indent fuel k)
    | none =>
      let (breaks, far, k) := blockLead fuel 0 k
      (max least far, breaks, k)
  let lines := blockLines style indent fuel breaks k
  let ending := match chomp with
    | .strip => []
    | .clip => lines.last
    | .keep => lines.last ++ lines.empty
  pure (lines.text ++ ending, lines.next)

end Cursor

end LoanLedger.Yaml
