import ObjectStore.Markup.Cursor

/-! # Scalars

The ways to write a text in markup.

* **`Style`** — plain, quoted or as a block of lines.
* **`Gap`** — what stands between two words of a plain or quoted scalar, and what it stands for: a
  single line break is a blank, further ones are kept.
* **`plain`**, **`quoted`**, **`block`** — read a scalar of each kind. -/

namespace ObjectStore.Markup

/-- How a scalar is written. -/
inductive Style where
  | plain | singleQuoted | doubleQuoted | literal | folded
  deriving DecidableEq, Repr

/-! ## Gaps -/

/-- Blanks and line breaks between two words. -/
structure Gap where
  /-- The blanks, as long as no line has ended. -/
  blanks : List Char := []
  /-- The first line break, if there is one; an escaped one is empty. -/
  first : Option (List Char) := none
  /-- The line breaks after it. -/
  further : List Char := []

namespace Gap

/-- The text a gap stands for. -/
def text (g : Gap) : List Char :=
  match g.first with
  | none => g.blanks
  | some ['\n'] => if g.further.isEmpty then [' '] else g.further
  | some first => first ++ g.further

/-- Pass over one blank or line break. In a plain scalar, no tab may stand in for indentation. -/
def step (indent : Option Int) (g : Gap) (c : Cursor) : Except Problem (Cursor.Next Gap) :=
  match c.rest with
  | [] => .ok (.stop g c)
  | x :: _ =>
    if isBlank x then
      if g.first.isSome && x == '\t' && indent.any fun n => (c.column : Int) < n then
        .error .tabInIndentation
      else
        .ok (.more (if g.first.isNone then { g with blanks := g.blanks ++ [x] } else g) (c.advance 1))
    else if isBreak x then
      let (lineBreak, after) := c.takeBreak
      match g.first with
      | none => .ok (.more { g with blanks := [], first := some lineBreak } after)
      | some _ => .ok (.more { g with further := g.further ++ lineBreak } after)
    else .ok (.stop g c)

/-- Pass over all blanks and line breaks. -/
def read (indent : Option Int) (g : Gap) (c : Cursor) : Except Problem (Gap × Cursor) :=
  c.iterate (step indent) g

end Gap

/-! ## Plain scalars -/

/-- The characters that end a plain scalar inside a flow collection. -/
def flowIndicators : List Char := [',', '[', ']', '{', '}']

/-- Whether a token would be over before some text. -/
def isOver : List Char → Bool
  | [] => true
  | x :: _ => isBlank x || isBreak x

/-- The word of a plain scalar at the head of a text, in reverse after the characters read so far. -/
def plainWord (inFlow : Bool) (taken : List Char) : List Char → Except Problem (List Char)
  | [] => .ok taken.reverse
  | x :: rest =>
    if isBlank x || isBreak x then .ok taken.reverse
    else if inFlow && x == ':' && rest.head?.any (· ∈ '?' :: flowIndicators) then
      .error .ambiguousColon
    else if x == ':' && isOver rest then .ok taken.reverse
    else if inFlow && x ∈ flowIndicators then .ok taken.reverse
    else plainWord inFlow (x :: taken) rest

/-- What has been read of a plain or quoted scalar: the pieces in reverse, and the gap after them. -/
structure Pieces where
  pieces : List (List Char) := []
  gap : Gap := {}

/-- The text of the pieces. -/
def Pieces.text (s : Pieces) : List Char := s.pieces.reverse.flatten

/-- Read a word of a plain scalar and the gap after it. Outside of flow collections a line that is
indented less than the scalar ends it. -/
def plainStep (inFlow : Bool) (indent : Int) (s : Pieces) (c : Cursor) :
    Except Problem (Cursor.Next Pieces) := do
  if c.atDocumentMark || c.sees 0 '#' then return .stop s c
  let word ← plainWord inFlow [] c.rest
  let s := if word.isEmpty then s else { pieces := word :: s.gap.text :: s.pieces }
  let c := c.advance word.length
  if c.atBlank || c.atBreak then
    let (gap, c) ← Gap.read (some indent) {} c
    let s := { s with gap }
    return if !inFlow && (c.column : Int) < indent then .stop s c else .more s c
  else return .stop s c

/-- Read a plain scalar; its text, and whether it ends at a line break. -/
def plain (inFlow : Bool) (indent : Int) (c : Cursor) :
    Except Problem ((List Char × Bool) × Cursor) := do
  let (s, c) ← c.iterate (plainStep inFlow indent) {}
  return ((s.text, s.gap.first.isSome), c)

/-! ## Quoted scalars -/

/-- What follows a backslash. -/
inductive Escape where
  /-- A character that stands for another. -/
  | char (c : Char)
  /-- The number of a character, in so many hexadecimal digits. -/
  | code (digits : Nat)

/-- The meaning of the character after a backslash. -/
def escape? : Char → Option Escape
  | '0' => some (.char '\x00')
  | 'a' => some (.char '\x07')
  | 'b' => some (.char '\x08')
  | 't' => some (.char '\t')
  | '\t' => some (.char '\t')
  | 'n' => some (.char '\n')
  | 'v' => some (.char '\x0b')
  | 'f' => some (.char '\x0c')
  | 'r' => some (.char '\r')
  | 'e' => some (.char '\x1b')
  | ' ' => some (.char ' ')
  | '"' => some (.char '"')
  | '/' => some (.char '/')
  | '\\' => some (.char '\\')
  | 'N' => some (.char '\u0085')
  | '_' => some (.char '\u00a0')
  | 'L' => some (.char '\u2028')
  | 'P' => some (.char '\u2029')
  | 'x' => some (.code 2)
  | 'u' => some (.code 4)
  | 'U' => some (.code 8)
  | _ => none

/-- The character whose number is written in hexadecimal digits. -/
def codeChar (digits : List Char) : Except Problem Char := do
  let mut n := 0
  for d in digits do
    match hexDigit? d with
    | some v => n := 16 * n + v
    | none => throw .badEscape
  if n.isValidChar then return Char.ofNat n else throw .badEscape

/-- Read one character of a quoted scalar, with the characters read so far in reverse. The run ends
before a blank, a line break, an escaped line break or the closing quote. -/
def quotedStep (single : Bool) (taken : List Char) (c : Cursor) :
    Except Problem (Cursor.Next (List Char)) := do
  match c.rest with
  | [] => return .stop taken c
  | x :: more =>
    if isBlank x || isBreak x then return .stop taken c
    else if single then
      if x != '\'' then return .more (x :: taken) (c.advance 1)
      else if more.head? == some '\'' then return .more ('\'' :: taken) (c.advance 2)
      else return .stop taken c
    else if x == '"' then return .stop taken c
    else if x != '\\' then return .more (x :: taken) (c.advance 1)
    else
      match more with
      | [] => throw .badEscape
      | y :: digits =>
        if isBreak y then return .stop taken c
        else
          match escape? y with
          | some (.char z) => return .more (z :: taken) (c.advance 2)
          | some (.code count) =>
            if digits.length < count then throw .badEscape
            let z ← codeChar (digits.take count)
            return .more (z :: taken) (c.advance (2 + count))
          | none => throw .badEscape

/-- Read a run of a quoted scalar and the gap after it, up to the closing quote. -/
def quotedLineStep (single : Bool) (s : Pieces) (c : Cursor) :
    Except Problem (Cursor.Next Pieces) := do
  if c.atDocumentMark then throw .interruptedQuote
  if c.atEnd then throw .unclosedQuote
  let (taken, c) ← c.iterate (quotedStep single) []
  let s := { s with pieces := taken.reverse :: s.pieces }
  if c.sees 0 (if single then '\'' else '"') then return .stop s c
  let (gap, c) : Gap × Cursor :=
    if c.sees 0 '\\' then ({ first := some [] }, (c.advance 1).takeBreak.2) else ({}, c)
  let (gap, c) ← gap.read none c
  return .more { s with pieces := gap.text :: s.pieces } c

/-- Read a quoted scalar, both quotes included. -/
def quoted (single : Bool) (c : Cursor) : Except Problem (List Char × Cursor) := do
  let (s, c) ← (c.advance 1).iterate (quotedLineStep single) {}
  return (s.text, c.advance 1)

/-! ## Block scalars -/

/-- What becomes of the line breaks at the end of a block scalar. -/
inductive Chomping where
  /-- All are dropped. -/
  | strip
  /-- The first is kept. -/
  | clip
  /-- All are kept. -/
  | keep
  deriving DecidableEq, Repr

/-- The chomping that comes next in the head of a block scalar. -/
def chomping? (c : Cursor) : Option Chomping :=
  if c.sees 0 '+' then some .keep else if c.sees 0 '-' then some .strip else none

/-- The indentation that comes next in the head of a block scalar. -/
def increment? (c : Cursor) : Except Problem (Option Nat) :=
  match (c.peek 0).bind decimalDigit? with
  | none => .ok none
  | some 0 => .error .badBlockHead
  | some n => .ok (some n)

/-- Read the head of a block scalar after its indicator: the chomping and the indentation in either
order, then nothing but a comment. -/
def blockHead (c : Cursor) : Except Problem ((Chomping × Option Nat) × Cursor) := do
  let ((chomping, increment), c) ← match chomping? c with
    | some chomping => do
      let c := c.advance 1
      let increment ← increment? c
      pure ((chomping, increment), if increment.isSome then c.advance 1 else c)
    | none => do
      match ← increment? c with
      | none => pure ((.clip, none), c)
      | some n =>
        let c := c.advance 1
        match chomping? c with
        | some chomping => pure ((chomping, some n), c.advance 1)
        | none => pure ((.clip, some n), c)
  let c := c.skipBlanks.skipComment
  if c.atBreak then return ((chomping, increment), c.takeBreak.2)
  else if c.atEnd then return ((chomping, increment), c)
  else throw .badBlockHead

/-- Empty lines before a line of a block scalar: their line breaks and the furthest column reached. -/
structure EmptyLines where
  breaks : List Char := []
  furthest : Nat := 0

/-- Pass over the blanks of one line and its break. Without a known indentation all blanks count. -/
def emptyLineStep (indent : Option Nat) (s : EmptyLines) (c : Cursor) :
    Except Problem (Cursor.Next EmptyLines) := do
  let blanks := (c.rest.takeWhile (· == ' ')).length
  let c := c.advance (match indent with
    | none => blanks
    | some n => min blanks (n - c.column))
  let s := { s with furthest := max s.furthest c.column }
  if (indent.all fun n => c.column < n) && c.sees 0 '\t' then throw .tabInIndentation
  if c.atBreak then
    let (lineBreak, c) := c.takeBreak
    return .more { s with breaks := s.breaks ++ lineBreak } c
  else return .stop s c

/-- Pass over empty lines; the indentation is found out if it is not known, and is at least `least`. -/
def emptyLines (indent : Option Nat) (least : Nat) (c : Cursor) :
    Except Problem ((List Char × Nat) × Cursor) := do
  let (s, c) ← c.iterate (emptyLineStep indent) {}
  return ((s.breaks, indent.getD (max s.furthest (max least 1))), c)

/-- What has been read of a block scalar. -/
structure BlockLines where
  /-- The pieces of the text in reverse. -/
  pieces : List (List Char) := []
  /-- The break of the last line. -/
  lineBreak : List Char := []
  /-- The breaks of the empty lines after it. -/
  further : List Char
  /-- Whether the last line began with a blank. -/
  wasBlank : Bool := false

/-- Read one line of a block scalar and the empty lines after it. In a folded scalar the break between
two lines that begin with no blank becomes a blank. -/
def blockStep (folded : Bool) (indent : Nat) (s : BlockLines) (c : Cursor) :
    Except Problem (Cursor.Next BlockLines) := do
  if c.column != indent || c.atEnd then return .stop s c
  let isBlank := c.atBlank
  let joint :=
    if folded && s.lineBreak == ['\n'] && !s.wasBlank && !isBlank then
      if s.further.isEmpty then [' '] else []
    else s.lineBreak
  let (line, c) := c.takeWhile (!isBreak ·)
  let (lineBreak, c) := c.takeBreak
  let ((further, _), c) ← emptyLines (some indent) 0 c
  return .more
    { pieces := line :: s.further :: joint :: s.pieces, lineBreak, further, wasBlank := isBlank } c

/-- Read a block scalar, its indicator included, below a node with the given indentation. -/
def block (folded : Bool) (outer : Int) (c : Cursor) : Except Problem (List Char × Cursor) := do
  let ((chomping, increment), c) ← blockHead (c.advance 1)
  let known := increment.map fun n => outer.toNat + n
  let ((further, indent), c) ← emptyLines known (outer + 1).toNat c
  let (s, c) ← c.iterate (blockStep folded indent) { further }
  let tail := match chomping with
    | .strip => []
    | .clip => s.lineBreak
    | .keep => s.lineBreak ++ s.further
  return (s.pieces.reverse.flatten ++ tail, c)

end ObjectStore.Markup
