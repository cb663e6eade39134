import LoanLedger.Yaml.Cursor

/-!
# Plain scalars

* `foldBreaks first breaks` : what the line breaks between two words are read as: one alone is a
  space, of several the first is dropped;
* `plainRun inFlow cs` : the characters of a plain scalar up to the next gap or indicator;
* `Cursor.plain inFlow margin k` : the plain scalar at `k`, which may go on over lines that are
  indented to the margin at least.
-/

namespace LoanLedger.Yaml

def foldBreaks (first breaks : List Char) : List Char :=
  if first ≠ ['\n'] then first ++ breaks
  else if breaks.isEmpty then [' ']
  else breaks

/-- Whether a colon with some character behind it ends a scalar. -/
def endsKey (inFlow : Bool) (next : Char) : Bool :=
  isGap next || (inFlow && ",[]\x7b\x7d".toList.contains next)

/-- The characters of a plain scalar up to the next gap or indicator. -/
def plainRun (inFlow : Bool) : List Char → List Char
  | [] => []
  | c :: cs =>
    if isGap c || (c = ':' && endsKey inFlow (cs.headD '\x00')) ||
        (inFlow && ",?[]\x7b\x7d".toList.contains c) then []
    else c :: plainRun inFlow cs

/-- A plain scalar, or a part of one. -/
structure Plain where
  text : List Char
  /-- Whether a line ended behind the last word. -/
  crossed : Bool
  next : Cursor

namespace Cursor

/-- Skips spaces and line breaks and keeps the breaks; a mark between documents ends the search,
with nothing to keep. -/
def plainBreaks : Nat → Cursor → Option (List Char) × Cursor
  | 0, k => (some [], k)
  | fuel + 1, k =>
    if k.peek = ' ' then plainBreaks fuel k.advance
    else if isBreak k.peek then
      let (b, k) := k.takeBreak
      if k.isAtMark then (none, k)
      else
        let (bs, k) := plainBreaks fuel k
        (bs.map (b ++ ·), k)
    else (some [], k)

/-- What stands between two words of a plain scalar; empty when the scalar does not go on. -/
def plainGap (k : Cursor) : Plain :=
  let (spaces, k) := k.span (· = ' ')
  if isBreak k.peek then
    let (first, k) := k.takeBreak
    if k.isAtMark then ⟨[], true, k⟩
    else
      let (breaks, k) := plainBreaks k.rest.length k
      ⟨breaks.elim [] (foldBreaks first), true, k⟩
  else ⟨spaces, false, k⟩

/-- The words of a plain scalar behind a gap. -/
def plainWords (inFlow : Bool) (margin : Nat) : Nat → Plain → Plain
  | 0, gap => ⟨[], gap.crossed, gap.next⟩
  | fuel + 1, gap =>
    let k := gap.next
    let run := plainRun inFlow k.rest
    if k.peek = '#' || run.isEmpty then ⟨[], gap.crossed, k⟩
    else
      let after := (k.advanceBy run.length).plainGap
      let ended := after.text.isEmpty || after.next.peek = '#' ||
        (!inFlow && after.next.column < margin)
      let tail := if ended then ⟨[], after.crossed, after.next⟩
        else plainWords inFlow margin fuel after
      { tail with text := gap.text ++ run ++ tail.text }

def plain (inFlow : Bool) (margin : Nat) (k : Cursor) : Plain :=
  plainWords inFlow margin (k.rest.length + 1) ⟨[], false, k⟩

end Cursor

end LoanLedger.Yaml
