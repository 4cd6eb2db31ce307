import ObjectStore.Markup.Token

/-! # Layout

The layout of a document says where its blocks begin and end: indentation opens and closes them, and
a colon makes a key of what stands before it in its line.

* **`Layout`** — the state of reading: the cursor, the tokens so far, the indentations of the open
  blocks, and the places that may turn out to be keys.
* **`Layout.next`** — read one token, with the marks that come before it.
* **`Token.scan`** — all the tokens of a text. -/

namespace ObjectStore.Markup

/-- A place where a key without indicator may have begun. -/
structure SimpleKey where
  /-- Whether nothing else but a key can stand there. -/
  required : Bool
  /-- How many tokens come before it. -/
  position : Nat
  offset : Nat
  line : Nat
  column : Nat

/-- The state of reading. -/
structure Layout where
  cursor : Cursor
  tokens : Array Token := #[]
  /-- The column of the innermost open block, −1 if there is none. -/
  indent : Int := -1
  /-- The columns of the blocks around it. -/
  outer : List Int := []
  /-- Whether a key without indicator may begin here. -/
  keyAllowed : Bool := true
  /-- Where the innermost flow collection, or else the block, may have begun a key. -/
  simpleKey : Option SimpleKey := none
  /-- The same for everything around it, one entry for each open flow collection. -/
  outerKeys : List (Option SimpleKey) := []

namespace Layout

/-- Whether the cursor is inside a flow collection. -/
def inFlow (s : Layout) : Bool := !s.outerKeys.isEmpty

/-- The column of the cursor. -/
def column (s : Layout) : Int := s.cursor.column

/-- Append a token. -/
def push (s : Layout) (token : Token) : Layout := { s with tokens := s.tokens.push token }

/-- Append a token and pass over the characters of its indicator. -/
def pushIndicator (s : Layout) (token : Token) (width : Nat) : Layout :=
  { s with tokens := s.tokens.push token, cursor := s.cursor.advance width }

/-- Put a token before those from a position on. -/
def insert (s : Layout) (position : Nat) (token : Token) : Layout :=
  { s with tokens := s.tokens.insertIdxIfInBounds position token }

/-! ## Keys without indicator -/

/-- Forget that a key may have begun. One that is required must have had its colon. -/
def dropKey (s : Layout) : Except Problem Layout :=
  match s.simpleKey with
  | some key => if key.required then .error .missingColon else .ok { s with simpleKey := none }
  | none => .ok s

/-- Remember that a key may begin here, if one may. -/
def saveKey (s : Layout) : Except Problem Layout :=
  if s.keyAllowed then do
    let required := !s.inFlow && s.indent == s.column
    let s ← s.dropKey
    let c := s.cursor
    let key : SimpleKey := ⟨required, s.tokens.size, c.offset, c.line, c.column⟩
    return { s with simpleKey := some key }
  else .ok s

/-- The most bytes from where a key without indicator begins to its colon. -/
def longestKey : Nat := 1024

/-- Forget one place of a key if the cursor is too far from it: in another line, or beyond the longest
key. -/
def freshen (c : Cursor) : Option SimpleKey → Except Problem (Option SimpleKey)
  | none => .ok none
  | some key =>
    if key.line < c.line || key.offset + longestKey < c.offset then
      if key.required then .error .missingColon else .ok none
    else .ok (some key)

/-- Forget all places of keys that the cursor is too far from. -/
def freshenKeys (s : Layout) : Except Problem Layout := do
  let outerKeys ← s.outerKeys.mapM (freshen s.cursor)
  let simpleKey ← freshen s.cursor s.simpleKey
  return { s with simpleKey, outerKeys }

/-! ## Indentation -/

/-- Open a block at a column beyond the innermost one; its mark goes to a position among the tokens or
to their end. Inside flow collections indentation does not count. -/
def openBlock (s : Layout) (column : Int) (position : Option Nat) (mark : Token) : Layout :=
  if s.inFlow || column ≤ s.indent then s
  else
    let s := { s with indent := column, outer := s.indent :: s.outer }
    match position with
    | some position => s.insert position mark
    | none => s.push mark

/-- Close the blocks that begin beyond a column, from the innermost on. -/
def closeBlocksFrom (column : Int) : (outer : List Int) → (indent : Int) → Array Token →
    Array Token × Int × List Int
  | [], indent, tokens => (tokens, indent, [])
  | next :: outer, indent, tokens =>
    if column < indent then closeBlocksFrom column outer next (tokens.push .blockEnd)
    else (tokens, indent, next :: outer)

/-- Close the blocks that begin beyond a column. Inside flow collections indentation does not count. -/
def closeBlocks (s : Layout) (column : Int) : Layout :=
  if s.inFlow then s
  else
    let (tokens, indent, outer) := closeBlocksFrom column s.outer s.indent s.tokens
    { s with tokens, indent, outer }

/-! ## Between tokens -/

/-- Pass over blanks, a comment and a line break. Outside of flow collections a key may begin in a new
line, and tabs may not stand before one. One byte order mark at the beginning of a line means nothing,
but it takes a column. -/
def gapStep (keyAllowed : Bool) (inFlow : Bool) (c : Cursor) :
    Except Problem (Cursor.Next Bool) := do
  let c := if c.column == 0 && c.sees 0 byteOrderMark then c.advance 1 else c
  let c := (c.takeWhile fun x => x == ' ' || (x == '\t' && (inFlow || !keyAllowed))).2
  let c := c.skipComment
  if c.atBreak then return .more (keyAllowed || !inFlow) c.takeBreak.2
  else return .stop keyAllowed c

/-- Go to the next token. -/
def skipGap (s : Layout) : Except Problem Layout := do
  let inFlow := s.inFlow
  let (keyAllowed, cursor) ← s.cursor.iterate (fun k c => gapStep k inFlow c) s.keyAllowed
  return { s with keyAllowed, cursor }

/-! ## Tokens -/

/-- A token that no block and no key goes across. -/
def breakOff (s : Layout) : Except Problem Layout := do
  let s ← (s.closeBlocks (-1)).dropKey
  return { s with keyAllowed := false }

/-- The end of the text closes everything as the beginning of a new line would. -/
def finish (s : Layout) : Except Problem Layout := s.breakOff

/-- Read a directive. -/
def directive (s : Layout) : Except Problem Layout := do
  let s ← s.breakOff
  let (token, cursor) ← readDirective s.cursor
  return { s.push token with cursor }

/-- Read the mark where a document begins or ends. -/
def documentMark (s : Layout) (token : Token) : Except Problem Layout := do
  return (← s.breakOff).pushIndicator token 3

/-- Open a flow collection. -/
def openFlow (s : Layout) (token : Token) : Except Problem Layout := do
  let s ← s.saveKey
  let s := { s with outerKeys := s.simpleKey :: s.outerKeys, simpleKey := none, keyAllowed := true }
  return s.pushIndicator token 1

/-- Close a flow collection. -/
def closeFlow (s : Layout) (token : Token) : Except Problem Layout := do
  let s ← s.dropKey
  let s := match s.outerKeys with
    | [] => s
    | key :: outerKeys => { s with simpleKey := key, outerKeys }
  return { s with keyAllowed := false }.pushIndicator token 1

/-- Separate two entries of a flow collection. -/
def flowEntry (s : Layout) : Except Problem Layout := do
  let s ← s.dropKey
  return { s with keyAllowed := true }.pushIndicator .flowEntry 1

/-- Begin something that opens a block of its own, where keys may begin. -/
def beginBlock (s : Layout) (mark : Token) : Except Problem Layout :=
  if s.inFlow then .ok s
  else if s.keyAllowed then .ok (s.openBlock s.column none mark)
  else .error .misplacedEntry

/-- Begin an entry of a block sequence. -/
def blockEntry (s : Layout) : Except Problem Layout := do
  let s ← (← s.beginBlock .blockSequenceStart).dropKey
  return { s with keyAllowed := true }.pushIndicator .blockEntry 1

/-- Begin a key that has an indicator. -/
def key (s : Layout) : Except Problem Layout := do
  let s ← (← s.beginBlock .blockMappingStart).dropKey
  return { s with keyAllowed := !s.inFlow }.pushIndicator .key 1

/-- Begin a value. What may have begun a key before it has done so. -/
def value (s : Layout) : Except Problem Layout := do
  match s.simpleKey with
  | some key =>
    let s := s.insert key.position .key
    let s := s.openBlock key.column (some key.position) .blockMappingStart
    return { s with simpleKey := none, keyAllowed := false }.pushIndicator .value 1
  | none =>
    let s ← s.beginBlock .blockMappingStart
    return { s with keyAllowed := !s.inFlow }.pushIndicator .value 1

/-- Read an anchor or an alias. -/
def name (s : Layout) (token : List Char → Token) : Except Problem Layout := do
  let s ← s.saveKey
  let (name, cursor) ← readName s.cursor
  return { s.push (token name) with cursor, keyAllowed := false }

/-- Read a tag. -/
def tag (s : Layout) : Except Problem Layout := do
  let s ← s.saveKey
  let (token, cursor) ← readTag s.inFlow s.cursor
  return { s.push token with cursor, keyAllowed := false }

/-- Read a block scalar. -/
def blockScalar (s : Layout) (style : Style) : Except Problem Layout := do
  let s ← s.dropKey
  let (text, cursor) ← block (style == .folded) s.indent s.cursor
  return { s.push (.scalar style text) with cursor, keyAllowed := true }

/-- Read a quoted scalar. -/
def quotedScalar (s : Layout) (style : Style) : Except Problem Layout := do
  let s ← s.saveKey
  let (text, cursor) ← quoted (style == .singleQuoted) s.cursor
  return { s.push (.scalar style text) with cursor, keyAllowed := false }

/-- Read a plain scalar. A key may begin after one that ends at a line break. -/
def plainScalar (s : Layout) : Except Problem Layout := do
  let s ← s.saveKey
  let ((text, atBreak), cursor) ← plain s.inFlow (s.indent + 1) s.cursor
  return { s.push (.scalar .plain text) with cursor, keyAllowed := atBreak }

/-- The characters that begin something other than a plain scalar. -/
def indicators : List Char :=
  ['-', '?', ':', ',', '[', ']', '{', '}', '#', '&', '*', '!', '|', '>', '\'', '"', '%', '@', '\x60']

/-- Whether a plain scalar can begin with a character before another. Some indicators can begin one if
no blank follows, the question mark and the colon only outside of flow collections. -/
def beginsPlain (inFlow : Bool) (c : Cursor) (x : Char) : Bool :=
  !(isBlank x || isBreak x || indicators.contains x) ||
    (x == '-' && !(c.peek 1).any isBlank) ||
    (!inFlow && (x == '?' || x == ':') && !c.overAt 1)

/-- Read the token that begins with a character. -/
def token (s : Layout) (x : Char) : Except Problem Layout :=
  let c := s.cursor
  if c.column == 0 && x == '%' then s.directive
  else if c.atMark '-' then s.documentMark .documentStart
  else if c.atMark '.' then s.documentMark .documentEnd
  else if x == '[' then s.openFlow .flowSequenceStart
  else if x == '{' then s.openFlow .flowMappingStart
  else if x == ']' then s.closeFlow .flowSequenceEnd
  else if x == '}' then s.closeFlow .flowMappingEnd
  else if x == ',' then s.flowEntry
  else if x == '-' && c.overAt 1 then s.blockEntry
  else if x == '?' && (s.inFlow || c.overAt 1) then s.key
  else if x == ':' && (s.inFlow || c.overAt 1) then s.value
  else if x == '*' then s.name .alias
  else if x == '&' then s.name .anchor
  else if x == '!' then s.tag
  else if x == '|' && !s.inFlow then s.blockScalar .literal
  else if x == '>' && !s.inFlow then s.blockScalar .folded
  else if x == '\'' then s.quotedScalar .singleQuoted
  else if x == '"' then s.quotedScalar .doubleQuoted
  else if beginsPlain s.inFlow c x then s.plainScalar
  else .error .unexpectedCharacter

/-- Read one token with the marks that come before it, or find that there is none left. -/
def next (s : Layout) : Except Problem (Layout × Bool) := do
  let s ← (← s.skipGap).freshenKeys
  let s := s.closeBlocks s.column
  match s.cursor.rest with
  | [] => return (← s.finish, true)
  | x :: _ => return (← s.token x, false)

/-- Read all the tokens that are left. Every token takes at least one character. -/
def readAll (s : Layout) : Except Problem (Array Token) :=
  match s.next with
  | .error problem => .error problem
  | .ok (after, done) =>
    if done then .ok after.tokens
    else if after.cursor.rest.length < s.cursor.rest.length then readAll after
    else .ok after.tokens
termination_by s.cursor.rest.length

end Layout

/-- All the tokens of a text. -/
def Token.scan (text : List Char) : Except Problem (List Token) :=
  if text.all isAllowed then (Layout.readAll { cursor := { rest := text } }).map Array.toList
  else .error .forbiddenCharacter

end ObjectStore.Markup
