import ObjectStore.Text.Numeral
import ObjectStore.Text.Utf8

/-! # Reading positions in markup text

Settings are written in YAML. A document is read from a list of characters whose lines and columns
matter.

* **`Cursor`** — the text that is left, with the place where it begins.
* **`Cursor.advance`**, **`Cursor.takeBreak`** — pass over characters of a line, over a line break.
* **`Cursor.iterate`** — repeat a step as long as it makes headway.
* **`Problem`** — what can be wrong with a document. -/

namespace ObjectStore.Markup

/-- What can be wrong with a document. -/
inductive Problem where
  /-- A character that no document may contain. -/
  | forbiddenCharacter
  /-- A character that begins no token. -/
  | unexpectedCharacter
  /-- A key of a block mapping without its colon. -/
  | missingColon
  /-- An entry, key or value where none can begin. -/
  | misplacedEntry
  /-- A tab where blanks must show the indentation. -/
  | tabInIndentation
  /-- A directive that is not well formed. -/
  | badDirective
  /-- An anchor or alias that is not well formed. -/
  | badAnchor
  /-- A tag that is not well formed. -/
  | badTag
  /-- The head of a block scalar that is not well formed. -/
  | badBlockHead
  /-- An escape that denotes no character. -/
  | badEscape
  /-- A colon inside a plain scalar before a flow indicator. -/
  | ambiguousColon
  /-- A quoted scalar that the document ends in. -/
  | unclosedQuote
  /-- A document mark inside a quoted scalar. -/
  | interruptedQuote
  /-- Something other than a node where a node must stand. -/
  | missingNode
  /-- Something else where a collection must go on or end. -/
  | brokenCollection
  /-- Something other than the beginning of a document. -/
  | missingDocumentStart
  /-- A second directive of one kind. -/
  | repeatedDirective
  /-- A version that is not supported. -/
  | unsupportedVersion
  /-- A tag handle without a directive. -/
  | undefinedHandle
  /-- An alias without an anchor before it. -/
  | undefinedAlias
  /-- More than one document. -/
  | severalDocuments
  /-- A collection nested too deeply. -/
  | tooDeep
  deriving DecidableEq, Repr

/-! ## Characters -/

/-- Whether a character ends a line. -/
def isBreak (c : Char) : Bool :=
  c == '\n' || c == '\r' || c == '\u0085' || c == '\u2028' || c == '\u2029'

/-- Whether a character is a blank inside a line. -/
def isBlank (c : Char) : Bool := c == ' ' || c == '\t'

/-- Whether a character may stand in a name: an ASCII letter or digit, an underscore or a hyphen. -/
def isNameChar (c : Char) : Bool :=
  ('a' ≤ c && c ≤ 'z') || ('A' ≤ c && c ≤ 'Z') || ('0' ≤ c && c ≤ '9') || c == '_' || c == '-'

/-- Whether a document may contain a character: no control characters but tab and line breaks, and no
noncharacters at the end of the basic plane. -/
def isAllowed (c : Char) : Bool :=
  let n := c.toNat
  n == 0x9 || n == 0xA || n == 0xD || (0x20 ≤ n && n ≤ 0x7E) || n == 0x85 ||
    (0xA0 ≤ n && n ≤ 0xFFFD) || 0x10000 ≤ n

/-- The byte order mark, which may stand at the beginning of a line. -/
def byteOrderMark : Char := '\uFEFF'

/-! ## Cursors -/

/-- A place in a text, with the text from there on. -/
structure Cursor where
  rest : List Char
  /-- How many bytes come before. -/
  offset : Nat := 0
  /-- How many line breaks come before. -/
  line : Nat := 0
  /-- How many characters of the line come before. -/
  column : Nat := 0

namespace Cursor

/-- Pass over some characters of the line. -/
def advance (c : Cursor) (count : Nat) : Cursor :=
  { c with
    rest := c.rest.drop count
    offset := c.offset + Utf8.size (c.rest.take count)
    column := c.column + count }

/-- Pass over a line break, if there is one. It counts as a newline, unless it separates lines or
paragraphs, which is kept. -/
def takeBreak (c : Cursor) : List Char × Cursor :=
  match c.rest with
  | '\r' :: '\n' :: rest =>
    (['\n'], { rest, offset := c.offset + 2, line := c.line + 1, column := 0 })
  | x :: rest =>
    if isBreak x then
      ([if x == '\u2028' || x == '\u2029' then x else '\n'],
        { rest, offset := c.offset + x.utf8Size, line := c.line + 1, column := 0 })
    else ([], c)
  | [] => ([], c)

/-- The character some places further on. -/
def peek (c : Cursor) (ahead : Nat) : Option Char := c.rest[ahead]?

/-- Whether a character stands some places further on. -/
def sees (c : Cursor) (ahead : Nat) (x : Char) : Bool := c.peek ahead == some x

/-- Whether one of some characters comes next. -/
def seesOneOf (c : Cursor) (xs : List Char) : Bool :=
  match c.rest with
  | [] => false
  | x :: _ => xs.contains x

/-- Whether the text ends here. -/
def atEnd (c : Cursor) : Bool := c.rest.isEmpty

/-- Whether a line break comes next. -/
def atBreak (c : Cursor) : Bool := (c.peek 0).any isBreak

/-- Whether a blank comes next. -/
def atBlank (c : Cursor) : Bool := (c.peek 0).any isBlank

/-- Whether a token would be over some places further on: a blank, a line break or the end. -/
def overAt (c : Cursor) (ahead : Nat) : Bool :=
  match c.peek ahead with
  | none => true
  | some x => isBlank x || isBreak x

/-- Whether a mark of three equal characters stands alone at the beginning of a line. -/
def atMark (c : Cursor) (x : Char) : Bool :=
  c.column == 0 && c.sees 0 x && c.sees 1 x && c.sees 2 x && c.overAt 3

/-- Whether a document begins or ends here. -/
def atDocumentMark (c : Cursor) : Bool := c.atMark '-' || c.atMark '.'

/-- Pass over the characters of a kind, none of them a line break. -/
def takeWhile (c : Cursor) (kind : Char → Bool) : List Char × Cursor :=
  let taken := c.rest.takeWhile kind
  (taken, c.advance taken.length)

/-- Pass over blanks. -/
def skipBlanks (c : Cursor) : Cursor := (c.takeWhile isBlank).2

/-- Pass over a comment, if there is one, up to the end of its line. -/
def skipComment (c : Cursor) : Cursor :=
  if c.sees 0 '#' then (c.takeWhile (!isBreak ·)).2 else c

/-- Where a repeated step leads. -/
inductive Next (σ : Type) where
  /-- Go on from here. -/
  | more (state : σ) (cursor : Cursor)
  /-- Stop here. -/
  | stop (state : σ) (cursor : Cursor)

/-- Repeat a step until it stops. A step that passes over nothing is the last one. -/
def iterate {σ : Type} (step : σ → Cursor → Except Problem (Next σ)) (state : σ) (c : Cursor) :
    Except Problem (σ × Cursor) :=
  match step state c with
  | .error problem => .error problem
  | .ok (.stop state after) => .ok (state, after)
  | .ok (.more state after) =>
    if after.rest.length < c.rest.length then iterate step state after else .ok (state, after)
termination_by c.rest.length

end Cursor

end ObjectStore.Markup
