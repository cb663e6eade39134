import LoanLedger.Yaml.Scalar.Block
import LoanLedger.Yaml.Scalar.Quoted
import LoanLedger.Yaml.Token.Name

/-!
# From text to tokens

* `KeyPlace` : a place where a key may have begun; whether one did shows only at its colon;
* `Layout` : the tokens so far and what decides on the next ones: the indentation of the open
  blocks, and for each open bracket the place where a key may have begun;
* `Layout.next l` : the next tokens;
* `Token.ofText s` : all the tokens of a text. Where it goes wrong, a fault is the last one, behind
  the tokens that were settled before.

A block is open as long as lines are indented at least as far as it. Its margin is the column of its
entries plus one, the margin outside of all blocks is zero.
-/

namespace LoanLedger.Yaml

/-- A place where a key may have begun. A key ends on its line, after 1024 characters at most. -/
structure KeyPlace where
  tokens : Nat
  required : Bool
  passed : Nat
  line : Nat
  column : Nat

/-- The tokens so far and what decides on the next ones. -/
structure Layout where
  cursor : Cursor
  /-- The margins of the open blocks, the innermost first. -/
  margins : List Nat
  /-- The place for a key within the innermost bracket, or outside of all. -/
  place : Option KeyPlace
  /-- The places for keys around the open brackets, the innermost first. -/
  outer : List (Option KeyPlace)
  allowed : Bool
  tokens : List Token

namespace Layout

def ofCursor (k : Cursor) : Layout :=
  ⟨k, [], none, [], true, []⟩

def inFlow (l : Layout) : Bool :=
  !l.outer.isEmpty

def margin (l : Layout) : Nat :=
  l.margins.headD 0

def push (t : Token) (l : Layout) : Layout :=
  { l with tokens := t :: l.tokens }

/-- Puts a token behind the first `n` ones. -/
def insertAt (n : Nat) (t : Token) (l : Layout) : Layout :=
  { l with tokens := l.tokens.insertIdx (l.tokens.length - n) t }

def moveTo (k : Cursor) (l : Layout) : Layout :=
  { l with cursor := k }

/-- Tells whether a key may begin at the next position. -/
def allow (b : Bool) (l : Layout) : Layout :=
  { l with allowed := b }

/-! ## Keys -/

/-- Whether no colon can make a key of this place any more. -/
def isStale (k : Cursor) (p : KeyPlace) : Bool :=
  p.line ≠ k.line || p.passed + 1024 < k.passed

/-- Forgets a place where no key can end any more. -/
def freshen (k : Cursor) : Option KeyPlace → Except Error (Option KeyPlace)
  | some p =>
    if isStale k p then if p.required then .error .malformed else .ok none
    else .ok (some p)
  | none => .ok none

/-- Forgets the places where no key can end any more. -/
def dropStale (l : Layout) : Except Error Layout := do
  let place ← freshen l.cursor l.place
  let outer ← l.outer.mapM (freshen l.cursor)
  pure { l with place, outer }

def dropPlace (l : Layout) : Except Error Layout :=
  match l.place with
  | some p => if p.required then .error .malformed else .ok { l with place := none }
  | none => .ok l

/-- Notes that a key may begin here. At the column of the entries of a block only a key can. -/
def savePlace (l : Layout) : Except Error Layout := do
  if l.allowed then
    let k := l.cursor
    let required := !l.inFlow && l.margin = k.column + 1
    let l ← l.dropPlace
    pure { l with place := some ⟨l.tokens.length, required, k.passed, k.line, k.column⟩ }
  else pure l

/-! ## Blocks -/

/-- Ends the blocks that are indented farther than a margin. -/
def closeBlocks (margin : Nat) : List Nat → List Token → List Nat × List Token
  | [], ts => ([], ts)
  | m :: ms, ts => if margin < m then closeBlocks margin ms (.blockEnd :: ts) else (m :: ms, ts)

/-- Ends the blocks that are indented farther than a margin, outside of brackets. -/
def unwind (margin : Nat) (l : Layout) : Layout :=
  if l.inFlow then l
  else
    let (margins, tokens) := closeBlocks margin l.margins l.tokens
    { l with margins, tokens }

/-- Opens a block at a column unless one is open there; its start goes behind the first `n` tokens. -/
def openBlock (n column : Nat) (start : Token) (l : Layout) : Layout :=
  if l.margin ≤ column then { l.insertAt n start with margins := (column + 1) :: l.margins } else l

/-! ## Single tokens -/

/-- Skips spaces, comments and line breaks up to the next token. Outside of brackets a key may begin
on a new line. -/
def skipGaps : Nat → Layout → Layout
  | 0, l => l
  | fuel + 1, l =>
    let k := (l.cursor.skip (· = ' ')).skipComment
    if isBreak k.peek then
      skipGaps fuel ((l.moveTo k.takeBreak.2).allow (l.allowed || !l.inFlow))
    else l.moveTo k

/-- A directive or a mark between documents ends all blocks. -/
def topLevel (l : Layout) : Except Error Layout := do
  pure ((← (l.unwind 0).dropPlace).allow false)

def mark (t : Token) (l : Layout) : Except Error Layout := do
  let l ← l.topLevel
  pure ((l.moveTo (l.cursor.advanceBy 3)).push t)

def directive (l : Layout) : Except Error Layout := do
  let l ← l.topLevel
  let (d, k) ← l.cursor.directive
  pure ((l.moveTo k).push (.directive d))

def openBracket (t : Token) (l : Layout) : Except Error Layout := do
  let l ← l.savePlace
  let l := ((l.moveTo l.cursor.advance).push t).allow true
  pure { l with place := none, outer := l.place :: l.outer }

def closeBracket (t : Token) (l : Layout) : Except Error Layout := do
  let l ← l.dropPlace
  let l := ((l.moveTo l.cursor.advance).push t).allow false
  match l.outer with
  | place :: outer => pure { l with place, outer }
  | [] => pure l

def comma (l : Layout) : Except Error Layout := do
  let l ← l.dropPlace
  pure (((l.moveTo l.cursor.advance).push .flowEntry).allow true)

/-- A dash before an element or a question mark before a key; outside of brackets it may open a
block. -/
def entry (start t : Token) (keyNext : Bool) (l : Layout) : Except Error Layout := do
  if !l.inFlow && !l.allowed then throw .malformed
  let l := if l.inFlow then l else l.openBlock l.tokens.length l.cursor.column start
  let l ← l.dropPlace
  pure (((l.moveTo l.cursor.advance).push t).allow keyNext)

/-- A colon. What began at the place for a key is one. -/
def colon (l : Layout) : Except Error Layout := do
  match l.place with
  | some p =>
    let l := { l with place := none }.insertAt p.tokens .key
    let l := if l.inFlow then l else l.openBlock p.tokens p.column .blockMapping
    pure (((l.moveTo l.cursor.advance).push .value).allow false)
  | none => l.entry .blockMapping .value (!l.inFlow)

def node (read : Cursor → Except Error (Token × Cursor)) (l : Layout) : Except Error Layout := do
  let l ← l.savePlace
  let (t, k) ← read l.cursor
  pure (((l.moveTo k).push t).allow false)

def quoted (style : QuoteStyle) (l : Layout) : Except Error Layout :=
  l.node fun k => do
    let (cs, k) ← k.quoted style
    pure (.scalar (String.ofList cs) false, k)

def block (style : BlockStyle) (l : Layout) : Except Error Layout := do
  let l ← l.dropPlace
  let (cs, k) ← l.cursor.block style l.margin
  pure (((l.moveTo k).push (.scalar (String.ofList cs) false)).allow true)

/-- A plain scalar. A key may follow on a new line. -/
def plain (l : Layout) : Except Error Layout := do
  let l ← l.savePlace
  let p := l.cursor.plain l.inFlow l.margin
  pure (((l.moveTo p.next).push (.scalar (String.ofList p.text) true)).allow p.crossed)

/-- Whether a plain scalar begins with a character and the one behind it. -/
def startsPlain (inFlow : Bool) (c next : Char) : Bool :=
  !(isGap c || "-?:,[]\x7b\x7d#&*!|>'\"%@\x60".toList.contains c) ||
    (!isGap next && (c = '-' || (!inFlow && (c = '?' || c = ':'))))

/-! ## All tokens -/

/-- The token at a position that is not the end, and those that come with it. -/
def next (l : Layout) : Except Error Layout :=
  let k := l.cursor
  let c := k.peek
  let alone := l.inFlow || isGap k.peekNext
  if c = '%' && k.column = 0 then l.directive
  else if k.column = 0 && k.hasMark '-' then l.mark .documentStart
  else if k.column = 0 && k.hasMark '.' then l.mark .documentEnd
  else if c = '[' then l.openBracket .flowSequence
  else if c = '\x7b' then l.openBracket .flowMapping
  else if c = ']' then l.closeBracket .flowSequenceEnd
  else if c = '\x7d' then l.closeBracket .flowMappingEnd
  else if c = ',' then l.comma
  else if c = '-' && isGap k.peekNext then l.entry .blockSequence .blockEntry true
  else if c = '?' && alone then l.entry .blockMapping .key (!l.inFlow)
  else if c = ':' && alone then l.colon
  else if c = '*' then l.node fun k => k.name.map fun r => (.reference r.1, r.2)
  else if c = '&' then l.node fun k => k.name.map fun r => (.anchor r.1, r.2)
  else if c = '!' then l.node fun k => k.tag.map fun r => (.tag r.1, r.2)
  else if c = '|' && !l.inFlow then l.block .literal
  else if c = '>' && !l.inFlow then l.block .folded
  else if c = '\'' then l.quoted .single
  else if c = '"' then l.quoted .double
  else if startsPlain l.inFlow c k.peekNext then l.plain
  else .error .malformed

/-- The end of the text ends all blocks. -/
def finish (l : Layout) : Except Error Layout :=
  (l.unwind 0).dropPlace

/-- The number of tokens before which no start of a key can come any more: those before the first
place that is still open. -/
def settled (l : Layout) : Nat :=
  let open_ := ((l.place :: l.outer).filterMap id).filter (!isStale l.cursor ·)
  (open_.map (·.tokens)).foldl min l.tokens.length

def broken (l : Layout) (e : Error) : List Token :=
  l.tokens.reverse.take l.settled ++ [.fault e]

/-- Moves to the next token, and ends the blocks that it does not belong to. -/
def approach (l : Layout) : Except Error Layout := do
  let l ← (l.skipGaps (l.cursor.rest.length + 1)).dropStale
  pure (l.unwind (l.cursor.column + 1))

/-- All the tokens from a position on, the oldest first. -/
def run : Nat → Layout → List Token
  | 0, l => l.tokens.reverse
  | fuel + 1, l =>
    match l.approach with
    | .error e => l.broken e
    | .ok here =>
      if here.cursor.isAtEnd then
        match here.finish with
        | .ok l => l.tokens.reverse
        | .error e => l.broken e
      else
        match here.next with
        | .ok l => run fuel l
        | .error e => l.broken e

end Layout

/-- The tokens of a text. A byte order mark at its start is skipped. -/
def Token.ofText (s : String) : List Token :=
  match Cursor.ofText? s with
  | none => [.fault .malformed]
  | some k =>
    let k := if k.peek = '\uFEFF' then k.advance else k
    (Layout.ofCursor k).run (k.rest.length + 1)

end LoanLedger.Yaml
