import ObjectStore.Markup.Scalar
import ObjectStore.Text.Utf8

/-! # Tokens

* **`Token`** — the pieces that a document is made of: indicators, marks of where blocks begin and
  end, and what carries content.
* **`readDirective`**, **`readName`**, **`readTag`** — read the tokens that have a form of their own
  besides scalars. -/

namespace ObjectStore.Markup

/-- A piece of a document. -/
inductive Token where
  /-- The version of the format. -/
  | version (major minor : Nat)
  /-- What a tag handle stands for. -/
  | handle (handle : List Char) (meaning : Bytes)
  | documentStart
  | documentEnd
  | blockSequenceStart
  | blockMappingStart
  | blockEnd
  | flowSequenceStart
  | flowSequenceEnd
  | flowMappingStart
  | flowMappingEnd
  | blockEntry
  | flowEntry
  | key
  | value
  | alias (name : List Char)
  | anchor (name : List Char)
  | tag (handle : List Char) (suffix : Bytes)
  | scalar (style : Style) (text : List Char)
  deriving DecidableEq, Repr

/-! ## Names -/

/-- Read the name of an anchor or alias after its indicator. It ends before a blank, the end of a
line or one of a few indicators. -/
def readName (c : Cursor) : Except Problem (List Char × Cursor) :=
  let (name, after) := (c.advance 1).takeWhile isNameChar
  if name.isEmpty || !(after.overAt 0 || after.seesOneOf ['?', ':', ',', ']', '}', '%', '@', '\x60'])
  then .error .badAnchor
  else .ok (name, after)

/-! ## Tags -/

/-- The bytes after the first in a character that begins with a given byte. -/
def continuationCount? (b : Nat) : Option Nat :=
  if b < 0x80 then some 0
  else if 0xC0 ≤ b ∧ b < 0xE0 then some 1
  else if 0xE0 ≤ b ∧ b < 0xF0 then some 2
  else if 0xF0 ≤ b ∧ b < 0xF8 then some 3
  else none

/-- Read a byte written as a percent sign and two hexadecimal digits. -/
def readEscapedByte (c : Cursor) : Except Problem (Nat × Cursor) :=
  match c.rest with
  | '%' :: a :: b :: _ =>
    match hexDigit? a, hexDigit? b with
    | some high, some low => .ok (16 * high + low, c.advance 3)
    | _, _ => .error .badTag
  | _ => .error .badTag

/-- Read the escaped bytes that continue a character. -/
def readContinuation : (count : Nat) → Cursor → Except Problem (Bytes × Cursor)
  | 0, c => .ok ([], c)
  | count + 1, c => do
    let (b, c) ← readEscapedByte c
    if b / 0x40 != 2 then throw .badTag
    let (more, c) ← readContinuation count c
    return (b.toUInt8 :: more, c)

/-- Whether a character may stand in a tag as it is; in a tag between angle brackets, and in what a
handle stands for, a few more may. -/
def isTagChar (wide : Bool) (c : Char) : Bool :=
  isNameChar c || [';', '/', '?', ':', '@', '&', '=', '+', '$', '.', '!', '~', '*', '\'', '(', ')'].contains c
    || (wide && [',', '[', ']'].contains c)

/-- Read one character of a tag, escaped or not, with the pieces read so far in reverse. -/
def tagStep (wide : Bool) (pieces : List Bytes) (c : Cursor) :
    Except Problem (Cursor.Next (List Bytes)) := do
  match c.rest with
  | [] => return .stop pieces c
  | x :: _ =>
    if x == '%' then
      let (b, c) ← readEscapedByte c
      match continuationCount? b with
      | none => throw .badTag
      | some count =>
        let (more, c) ← readContinuation count c
        return .more ((b.toUInt8 :: more) :: pieces) c
    else if isTagChar wide x then return .more (Utf8.encodeChar x :: pieces) (c.advance 1)
    else return .stop pieces c

/-- The bytes before the first zero byte. -/
def beforeZero (b : Bytes) : Bytes := b.takeWhile (· != 0)

/-- Read the characters of a tag after a head that has been read already. A zero byte, which can only be
written with an escape, ends what the tag says, but the characters after it are read as well. -/
def readTagText (wide : Bool) (head : List Char) (c : Cursor) : Except Problem (Bytes × Cursor) := do
  let (pieces, c) ← c.iterate (tagStep wide) []
  if head.isEmpty && pieces.isEmpty then throw .badTag
  return (beforeZero (Utf8.encode (head.drop 1) ++ pieces.reverse.flatten), c)

/-- Read a tag handle: an exclamation mark, a name, and another mark if there is one. -/
def readHandle (c : Cursor) : Except Problem (List Char × Cursor) :=
  if c.sees 0 '!' then
    let (name, c) := (c.advance 1).takeWhile isNameChar
    if c.sees 0 '!' then .ok ('!' :: name ++ ['!'], c.advance 1) else .ok ('!' :: name, c)
  else .error .badTag

/-- Whether a handle has a mark at both ends. -/
def isWholeHandle (handle : List Char) : Bool := 1 < handle.length && handle.getLast? == some '!'

/-- Read a tag: in angle brackets, after a handle, or after a single mark. The mark alone is a tag
without handle. Inside a flow collection a comma may follow. -/
def readTag (inFlow : Bool) (c : Cursor) : Except Problem (Token × Cursor) := do
  let ((handle, suffix), c) : (List Char × Bytes) × Cursor ←
    if c.sees 1 '<' then do
      let (suffix, c) ← readTagText true [] (c.advance 2)
      if c.sees 0 '>' then pure (([], suffix), c.advance 1) else throw .badTag
    else do
      let (handle, after) ← readHandle c
      if isWholeHandle handle then
        let (suffix, c) ← readTagText false [] after
        pure ((handle, suffix), c)
      else
        let (suffix, c) ← readTagText false handle after
        pure (if suffix.isEmpty then ([], Utf8.encode handle) else (['!'], suffix), c)
  if c.overAt 0 || (inFlow && c.sees 0 ',') then return (.tag handle suffix, c)
  else throw .badTag

/-! ## Directives -/

/-- Read a number of one to nine digits. -/
def readNumber (c : Cursor) : Except Problem (Nat × Cursor) :=
  let (digits, after) := c.takeWhile fun x => (decimalDigit? x).isSome
  if digits.isEmpty || 9 < digits.length then .error .badDirective
  else .ok (digits.foldl (fun n d => 10 * n + (decimalDigit? d).getD 0) 0, after)

/-- Read the value of a version directive. -/
def readVersion (c : Cursor) : Except Problem (Token × Cursor) := do
  let (major, c) ← readNumber c.skipBlanks
  if !c.sees 0 '.' then throw .badDirective
  let (minor, c) ← readNumber (c.advance 1)
  return (.version major minor, c)

/-- Read the value of a tag directive: a handle and what it stands for. -/
def readMeaning (c : Cursor) : Except Problem (Token × Cursor) := do
  let (handle, c) ← readHandle c.skipBlanks
  if handle != ['!'] && !isWholeHandle handle then throw .badDirective
  if !c.atBlank then throw .badDirective
  let (meaning, c) ← readTagText true [] c.skipBlanks
  if !c.overAt 0 then throw .badDirective
  return (.handle handle meaning, c)

/-- Read a directive and the rest of its line, which may hold nothing but a comment. -/
def readDirective (c : Cursor) : Except Problem (Token × Cursor) := do
  let (name, c) := (c.advance 1).takeWhile isNameChar
  if name.isEmpty || !c.overAt 0 then throw .badDirective
  let (token, c) ←
    if name == ['Y', 'A', 'M', 'L'] then readVersion c
    else if name == ['T', 'A', 'G'] then readMeaning c
    else throw .badDirective
  let c := c.skipBlanks.skipComment
  if c.atEnd then return (token, c)
  else if c.atBreak then return (token, c.takeBreak.2)
  else throw .badDirective

end ObjectStore.Markup
