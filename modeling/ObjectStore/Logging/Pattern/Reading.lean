import ObjectStore.Logging.Pattern.Basic
import ObjectStore.Text.Alphanumeric
import ObjectStore.Text.Numeral
import ObjectStore.Text.Space

/-! # Reading patterns

* **`Pattern.Reader`** — readers of the text of a pattern, where white space may be set to mean nothing.
* **`Pattern.readAtom`**, **`Pattern.readBrackets`**, **`Pattern.readBranches`** — read the parts of a
  pattern.
* **`Pattern.parse?`** — the pattern of a text.

A pattern stands between braces in a directive, which a comma ends, so none holds a closing brace or a
comma. What would need one, a count of repetitions or a code of any length, is therefore never well
formed. -/

namespace ObjectStore

namespace Pattern

/-! ## Readers -/

/-- What is known while a pattern is read. -/
structure Reading where
  /-- The text that is left. -/
  rest : List Char
  /-- White space and comments in the pattern mean nothing. -/
  spaced : Bool := false
  /-- The names of groups so far. -/
  names : List (List Char) := []

/-- Readers of the text of a pattern. -/
abbrev Reader : Type → Type := StateT Reading Option

/-- The text that is left. -/
def rest : Reader (List Char) := do return (← get).rest

/-- Go on with another text. -/
def goOn (rest : List Char) : Reader Unit := modify fun s => { s with rest }

/-- Read a character. -/
def next : Reader Char := do
  match ← rest with
  | [] => failure
  | c :: more =>
    goOn more
    return c

/-- Read a given text if it comes next. -/
def accept (text : List Char) : Reader Bool := do
  if text.isPrefixOf (← rest) then
    goOn ((← rest).drop text.length)
    return true
  else return false

/-- What follows white space and comments. A comment goes from its mark to the end of the line. -/
def dropSpace : (inComment : Bool) → List Char → List Char
  | _, [] => []
  | true, c :: more => dropSpace (c != '\n') more
  | false, c :: more =>
    if c == '#' then dropSpace true more
    else if isSpace c then dropSpace false more
    else c :: more

/-- Pass over white space and comments where they mean nothing. -/
def skipSpace : Reader Unit :=
  modify fun s => if s.spaced then { s with rest := dropSpace false s.rest } else s

/-- The character after the next one, past white space and the mark of a comment where they mean
nothing. -/
def peekSecond : Reader (Option Char) := do
  let s ← get
  let after := s.rest.drop 1
  if s.spaced then
    let shown := match after.dropWhile isSpace with
      | '#' :: more => more.dropWhile isSpace
      | shown => shown
    return (if shown.isEmpty then after else shown).head?
  else return after.head?

/-! ## Atoms -/

/-- Read the code of a character in a number of hexadecimal digits. -/
def readCode : (digits : Nat) → (code : Nat) → Reader Nat
  | 0, code => return code
  | digits + 1, code => do
    skipSpace
    match hexDigit? (← next) with
    | some d => readCode digits (16 * code + d)
    | none => failure

/-- Read a character by its code in a number of hexadecimal digits. -/
def readCoded (digits : Nat) : Reader Atom := do
  let code ← readCode digits 0
  if code.isValidChar then return .character (Char.ofNat code) else failure

/-- The control characters that have a letter. -/
def controls : List (Char × Char) :=
  [('a', '\x07'), ('f', '\x0C'), ('t', '\t'), ('n', '\n'), ('r', '\r'), ('v', '\x0B')]

/-- Read what follows a backslash. A mark stands for itself, and a letter or digit only for what it has
been given; the classes of Unicode have no tables. -/
def readEscape : Reader Atom := do
  let c ← next
  if c == 'x' then return .code (← readCode 2 0)
  else if c == 'u' then readCoded 4
  else if c == 'U' then readCoded 8
  else if ['d', 's', 'w'].contains c then return .group false
  else if ['D', 'S', 'W'].contains c then return .group true
  else if ['A', 'z'].contains c then return .edge
  else if ['b', 'B', '<', '>'].contains c then return .wordEdge
  else
    match controls.lookup c with
    | some control => return .character control
    | none => if c.toNat < 0x80 && !c.isAlphanum then return .character c else failure

/-- Read an atom outside of brackets. -/
def readAtom : Reader Atom := do
  let c ← next
  if c == '\\' then readEscape
  else if c == '.' then return .any
  else if c == '^' || c == '$' then return .edge
  else if c == '\x7b' then failure
  else return .character c

/-! ## Brackets -/

/-- Read an atom in brackets, where only backslashes are special. -/
def readMember : Reader Atom := do
  match ← next with
  | '\\' => readEscape
  | c => return .character c

/-- The code of an atom that stands for one character. -/
def Atom.code? : Atom → Option Nat
  | .character c => some c.toNat
  | .code n => some n
  | _ => none

/-- Read a character, a group or a range in brackets. A hyphen before another one or before the end
makes no range. -/
def readRange : Reader CharSet := do
  let first ← readMember
  skipSpace
  let second := (← peekSecond).getD ']'
  if (← rest).head? == some '-' && second != '-' && second != ']' then
    let _ ← next
    skipSpace
    match first.code?, (← readMember).code? with
    | some a, some b => if a ≤ b then return .range a b else failure
    | _, _ => failure
  else
    match first with
    | .any => failure
    | .edge => failure
    | .wordEdge => failure
    | a => return .single a

/-- The names of the ASCII classes. -/
def classNames : List String :=
  ["alnum", "alpha", "ascii", "blank", "cntrl", "digit", "graph", "lower", "print", "punct", "space",
    "upper", "word", "xdigit"]

/-- The ASCII class that a text begins with, and what follows it. -/
def namedClass? : List Char → Option (CharSet × List Char)
  | '[' :: ':' :: more =>
    let (negated, more) := match more with
      | '^' :: more => (true, more)
      | more => (false, more)
    let name := String.ofList (more.takeWhile (· ≠ ':'))
    match more.dropWhile (· ≠ ':') with
    | ':' :: ']' :: after => if classNames.contains name then some (.named negated name, after) else none
    | _ => none
  | _ => none

/-- Read hyphens that stand for themselves. -/
def readHyphens : (fuel : Nat) → Reader (List CharSet)
  | 0 => return []
  | fuel + 1 => do
    skipSpace
    if ← accept ['-'] then return .single (.character '-') :: (← readHyphens fuel) else return []

/-- Put a set to the right of what has been combined so far. -/
def joinSets (left : Option (CharSet × Combination)) (right : CharSet) : CharSet :=
  match left with
  | some (left, combination) => .combined combination left right
  | none => right

/-- Read the mark of a combination if it comes next. -/
def acceptCombination : Reader (Option Combination) := do
  if ← accept ['&', '&'] then return some .intersection
  else if ← accept ['-', '-'] then return some .difference
  else if ← accept ['~', '~'] then return some .symmetricDifference
  else return none

mutual

/-- Read a set in brackets after the opening one. Hyphens at its beginning, or else a closing bracket,
stand for themselves. -/
def readBrackets : (fuel : Nat) → Reader CharSet
  | 0 => failure
  | fuel + 1 => do
    skipSpace
    let negated ← accept ['^']
    let hyphens ← readHyphens fuel
    let leading ← if hyphens.isEmpty then accept [']'] else pure false
    let sets := if leading then [.single (.character ']')] else hyphens
    return .brackets negated (← readSets fuel none sets)

/-- Read the sets up to the closing bracket: those after the last mark of a combination are together
its right side, and what comes before it is the left one. -/
def readSets : (fuel : Nat) → (left : Option (CharSet × Combination)) → (sets : List CharSet) →
    Reader CharSet
  | 0, _, _ => failure
  | fuel + 1, left, sets => do
    skipSpace
    if ← accept [']'] then return joinSets left (CharSet.ofSets sets)
    else if let some (set, after) := namedClass? (← rest) then
      goOn after
      readSets fuel left (sets ++ [set])
    else if ← accept ['['] then
      let set ← readBrackets fuel
      readSets fuel left (sets ++ [set])
    else
      match ← acceptCombination with
      | some combination =>
        readSets fuel (some (joinSets left (CharSet.ofSets sets), combination)) []
      | none =>
        let set ← readRange
        readSets fuel left (sets ++ [set])

end

/-! ## Groups -/

/-- Whether a character may stand in the name of a group. -/
def isNameChar (c : Char) : Bool := isAlphanumeric c || ['_', '.', '[', ']'].contains c

/-- Read what announces the name of a group if it comes next. -/
def acceptName : Reader Bool := do
  if ← accept ['?', 'P', '<'] then return true else accept ['?', '<']

/-- Read the name of a group, which no other group may have. -/
def readGroupName : Reader Unit := do
  let text ← rest
  let name := text.takeWhile (· ≠ '>')
  let s ← get
  if name.all isNameChar && name.head?.any (fun c => c == '_' || isAlphabetic c) &&
      name.length < text.length && !s.names.contains name then
    set { s with rest := text.drop (name.length + 1), names := name :: s.names }
  else failure

/-- The letters of the flags: case, lines, line breaks, greed, characters, line ends and white space. -/
def flagLetters : List Char := ['i', 'm', 's', 'U', 'u', 'R', 'x']

/-- Read a change of flags up to its end. No flag may be named twice, and those after a hyphen are
turned off. -/
def readFlags : Reader FlagChange := do
  let text ← rest
  let named := text.takeWhile fun c => c ≠ ':' && c ≠ ')'
  let on := named.takeWhile (· ≠ '-')
  let off := (named.dropWhile (· ≠ '-')).drop 1
  goOn (text.drop named.length)
  if (on ++ off).all flagLetters.contains && (on ++ off).eraseDups.length == (on ++ off).length &&
      !(off.isEmpty && named.contains '-') then
    return { on, off }
  else failure

/-- Understand white space as a change of flags says. -/
def applySpacing (change : FlagChange) : Reader Unit :=
  modify fun s => { s with spaced := change.apply 'x' s.spaced }

/-- Run a reader, and afterwards understand white space as before. -/
def restoreSpacing {α : Type} (read : Reader α) : Reader α := do
  let spaced := (← get).spaced
  let result ← read
  modify fun s => { s with spaced }
  return result

mutual

/-- Read some branches up to a closing parenthesis or the end. -/
def readBranches : (fuel : Nat) → Reader (List Pattern)
  | 0 => failure
  | fuel + 1 => do
    let branch := ofParts (← readParts fuel []).reverse
    if ← accept ['|'] then return branch :: (← readBranches fuel) else return [branch]

/-- Read the parts of a branch, in reverse after those before them. A mark of repetition applies to the
part before it, which cannot be a change of flags, and may be followed by a mark of thrift. -/
def readParts : (fuel : Nat) → (parts : List Pattern) → Reader (List Pattern)
  | 0, _ => failure
  | fuel + 1, parts => do
    skipSpace
    match (← rest).head? with
    | none => return parts
    | some c =>
      if c == '|' || c == ')' then return parts
      else if c == '?' || c == '*' || c == '+' then
        let _ ← next
        match parts with
        | [] => failure
        | .flags _ :: _ => failure
        | part :: before =>
          let _ ← accept ['?']
          readParts fuel (.repeated part :: before)
      else if c == '(' then
        let _ ← next
        let part ← readGroup fuel
        readParts fuel (part :: parts)
      else if c == '[' then
        let _ ← next
        let set ← readBrackets fuel
        readParts fuel (.oneOf set :: parts)
      else
        let a ← readAtom
        readParts fuel (.atom a :: parts)

/-- Read what follows an opening parenthesis: a change of flags, or a group with its closing one. -/
def readGroup : (fuel : Nat) → Reader Pattern
  | 0 => failure
  | fuel + 1 => do
    skipSpace
    if ← acceptName then
      readGroupName
      readInside fuel {}
    else if ← accept ['?'] then
      let change ← readFlags
      if ← accept [':'] then readInside fuel change
      else if ← accept [')'] then
        if change == {} then failure
        else
          applySpacing change
          return .flags change
      else failure
    else readInside fuel {}

/-- Read the inside of a group under a change of flags, with its closing parenthesis. -/
def readInside : (fuel : Nat) → (change : FlagChange) → Reader Pattern
  | 0, _ => failure
  | fuel + 1, change => restoreSpacing do
    applySpacing change
    let branches ← readBranches fuel
    if ← accept [')'] then return .group change (ofBranches branches) else failure

end

/-- The pattern of a text. Reading takes no more steps than a few for each character. -/
def parse? (text : List Char) : Option Pattern :=
  match (readBranches (4 * text.length + 4)).run { rest := text } with
  | some (branches, s) => if s.rest.isEmpty then some (ofBranches branches) else none
  | none => none

end Pattern

end ObjectStore
