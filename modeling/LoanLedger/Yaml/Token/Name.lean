import LoanLedger.Text.Bytes
import LoanLedger.Yaml.Cursor
import LoanLedger.Yaml.Token

/-!
# Names, tags and directives

* `Cursor.name k` : the name of an anchor behind its indicator;
* `Cursor.tag k` : the tag at `k`;
* `Cursor.directive k` : the directive at `k`, with its line.
-/

namespace LoanLedger.Yaml

def isTagChar (c : Char) : Bool :=
  c.isAlphanum || "-;/?:@&=+$,_.!~*'()[]%".toList.contains c

/-- Whether a character, or the end of the text, may stand behind the name of an anchor. -/
def endsName (c : Char) : Bool :=
  isGap c || "?:,]\x7d%@`".toList.contains c

namespace Cursor

/-- Whether a space or the end of the line comes. -/
def isDone (k : Cursor) : Bool :=
  k.peek = ' ' || isLineEnd k.peek

def nameChars (k : Cursor) : Except Error (String × Cursor) :=
  let (cs, k) := k.span isNameChar
  if cs.isEmpty then .error .malformed else .ok (String.ofList cs, k)

def name (k : Cursor) : Except Error (String × Cursor) := do
  let (s, k) ← k.advance.nameChars
  if endsName k.peek then pure (s, k) else throw .malformed

/-! ## Tags -/

/-- The bytes of escapes, each written with a percent sign and two hexadecimal digits. -/
def percentBytes : Nat → Cursor → Except Error (List UInt8 × Cursor)
  | 0, k => .ok ([], k)
  | fuel + 1, k =>
    if k.peek = '%' then
      match Text.bytesOfHex? ((k.rest.drop 1).take 2) with
      | some [b] => do
        let (bs, k) ← percentBytes fuel (k.advanceBy 3)
        pure (b :: bs, k)
      | _ => .error .malformed
    else .ok ([], k)

/-- The characters of a tag, with the escapes decoded. -/
def tagChars : Nat → Cursor → Except Error (List Char × Cursor)
  | 0, k => .ok ([], k)
  | fuel + 1, k =>
    if k.peek = '%' then do
      let (bs, k) ← percentBytes k.rest.length k
      let some s := String.fromUTF8? ⟨bs.toArray⟩ | throw .malformed
      let (cs, k) ← tagChars fuel k
      pure (s.toList ++ cs, k)
    else if isTagChar k.peek then do
      let (cs, k') ← tagChars fuel k.advance
      pure (k.peek :: cs, k')
    else .ok ([], k)

def tagText (k : Cursor) : Except Error (String × Cursor) := do
  if !isTagChar k.peek then throw .malformed
  let (cs, k) ← tagChars k.rest.length k
  pure (String.ofList cs, k)

/-- The handle at a position: an exclamation mark, or a name between two. -/
def handle (k : Cursor) : Except Error (String × Cursor) := do
  if k.peek ≠ '!' then throw .malformed
  let k := k.advance
  if k.peek = ' ' then return ("!", k)
  let (cs, k) := k.span isNameChar
  if k.peek = '!' then pure (String.ofList ('!' :: cs ++ ['!']), k.advance) else throw .malformed

/-- Whether another exclamation mark comes before the end of the word. -/
def hasHandle (k : Cursor) : Bool :=
  (k.advance.rest.takeWhile fun c => c ≠ ' ' && !isBreak c).contains '!'

/-- A tag without the check of what comes behind it. -/
def openTag (k : Cursor) : Except Error (WrittenTag × Cursor) := do
  let next := k.peekNext
  if next = '<' then
    let (tag, k) ← (k.advanceBy 2).tagText
    if k.peek = '>' then pure (.whole tag, k.advance) else throw .malformed
  else if isGap next then pure (.whole "!", k.advance)
  else
    let (handle, k) ← if k.hasHandle then k.handle else pure ("!", k.advance)
    let (rest, k) ← k.tagText
    pure (.short handle rest, k)

def tag (k : Cursor) : Except Error (WrittenTag × Cursor) := do
  let (t, k) ← k.openTag
  if k.isDone then pure (t, k) else throw .malformed

/-! ## Directives -/

def digits (k : Cursor) : Except Error (List Char × Cursor) :=
  let (cs, k) := k.span Char.isDigit
  if cs.isEmpty then .error .malformed else .ok (cs, k)

def versionPart (k : Cursor) : Except Error (Nat × Cursor) := do
  let (cs, k) ← k.digits
  match Numeral.toInt? (String.ofList cs) with
  | .ok n => pure (n.toNat, k)
  | .error _ => throw (.integerTooLong cs.length)

/-- What a directive with a name tells. -/
def directiveValue (name : String) (k : Cursor) : Except Error (Directive × Cursor) := do
  if name = "YAML" then
    let (major, k) ← (k.skip (· = ' ')).versionPart
    if k.peek ≠ '.' then throw .malformed
    let (_, k) ← k.advance.versionPart
    if k.isDone then pure (.version major, k) else throw .malformed
  else if name = "TAG" then
    let (handle, k) ← (k.skip (· = ' ')).handle
    if k.peek ≠ ' ' then throw .malformed
    let (lead, k) ← (k.skip (· = ' ')).tagText
    if k.isDone then pure (.handle handle lead, k) else throw .malformed
  else pure (.other, k.skip (!isBreak ·))

def directive (k : Cursor) : Except Error (Directive × Cursor) := do
  let (name, k) ← k.advance.nameChars
  if !k.isDone then throw .malformed
  let (d, k) ← k.directiveValue name
  match k.finishLine? with
  | some k => pure (d, k)
  | none => throw .malformed

end Cursor

end LoanLedger.Yaml
