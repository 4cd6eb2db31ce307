/-! # Patterns

A log filter may ask for a field whose value matches a regular expression.

* **`Pattern`** — a regular expression, with **`CharSet`** for what stands in brackets.
* **`Pattern.Flags`** — how its parts are to be understood, and **`Pattern.FlagChange`** for what the
  pattern itself says about that.
* **`Pattern.depth`** — how deeply it is nested.
* **`Pattern.isUsable`** — whether it can be put to work. There are no tables of the letters, digits
  and cases of Unicode, and what a pattern matches is always text, never a part of a character. -/

namespace ObjectStore

namespace Pattern

/-! ## Flags -/

/-- How the parts of a pattern are understood. -/
structure Flags where
  /-- Upper and lower case are the same. -/
  ignoreCase : Bool := false
  /-- A pattern is about characters, otherwise about bytes. -/
  unicode : Bool := true
  deriving DecidableEq, Repr

/-- A change of flags, by their letters. -/
structure FlagChange where
  on : List Char := []
  off : List Char := []
  deriving DecidableEq, Repr

/-- What a change makes of a flag. -/
def FlagChange.apply (change : FlagChange) (letter : Char) (flag : Bool) : Bool :=
  change.on.contains letter || (flag && !change.off.contains letter)

/-- The flags after a change. The others do not decide whether a pattern is usable. -/
def Flags.change (flags : Flags) (change : FlagChange) : Flags where
  ignoreCase := change.apply 'i' flags.ignoreCase
  unicode := change.apply 'u' flags.unicode

/-! ## Parts -/

/-- A part of a pattern without parts of its own. -/
inductive Atom where
  /-- A character that stands for itself. -/
  | character (c : Char)
  /-- A character or byte by its code of two hexadecimal digits. -/
  | code (n : Nat)
  /-- Anything but a line break. -/
  | any
  /-- The beginning or end of a line or of the text. -/
  | edge
  /-- The beginning or end of a word, or neither. -/
  | wordEdge
  /-- One of the digits, blanks or word characters, or none of them. -/
  | group (negated : Bool)
  deriving DecidableEq, Repr

end Pattern

/-- How two sets of characters are combined. -/
inductive Combination where
  | intersection | difference | symmetricDifference
  deriving DecidableEq, Repr

/-- A set of characters, as it stands in brackets. -/
inductive CharSet where
  | empty
  /-- One character or a group of them. -/
  | single (atom : Pattern.Atom)
  /-- The characters between two codes, both included. -/
  | range (first last : Nat)
  /-- An ASCII class, or what is not in it. -/
  | named (negated : Bool) (name : String)
  /-- Some sets together. -/
  | union (sets : List CharSet)
  | combined (combination : Combination) (left right : CharSet)
  /-- A set in brackets of its own, or what is not in it. -/
  | brackets (negated : Bool) (inner : CharSet)

/-- A regular expression. -/
inductive Pattern where
  | atom (atom : Pattern.Atom)
  /-- A character of a set in brackets. -/
  | oneOf (set : CharSet)
  /-- A change of flags for what follows in the same group. -/
  | flags (change : Pattern.FlagChange)
  /-- Any number of times, or at most once, or at least once. -/
  | repeated (inner : Pattern)
  /-- A pattern in parentheses, with a change of flags for it alone. -/
  | group (change : Pattern.FlagChange) (inner : Pattern)
  /-- Patterns one after another. -/
  | sequence (parts : List Pattern)
  /-- One of some patterns. -/
  | choice (branches : List Pattern)

/-! ## Depth -/

namespace CharSet

/-- Some sets together; a single one is itself. -/
def ofSets : List CharSet → CharSet
  | [] => .empty
  | [set] => set
  | sets => .union sets

mutual

/-- How deeply a set is nested. -/
def depth : CharSet → Nat
  | .empty => 0
  | .single _ => 0
  | .range _ _ => 0
  | .named _ _ => 0
  | .union sets => depthAll sets + 1
  | .combined _ left right => max left.depth right.depth + 1
  | .brackets _ inner => inner.depth + 1

/-- The depth of the deepest of some sets. -/
def depthAll : List CharSet → Nat
  | [] => 0
  | set :: more => max set.depth (depthAll more)

end

end CharSet

namespace Pattern

/-- Patterns one after another; a single one is itself. -/
def ofParts : List Pattern → Pattern
  | [part] => part
  | parts => .sequence parts

/-- One of some patterns; a single one is itself. -/
def ofBranches : List Pattern → Pattern
  | [branch] => branch
  | branches => .choice branches

mutual

/-- How deeply a pattern is nested. -/
def depth : Pattern → Nat
  | .atom _ => 0
  | .oneOf set => set.depth
  | .flags _ => 0
  | .repeated inner => inner.depth + 1
  | .group _ inner => inner.depth + 1
  | .sequence [] => 0
  | .sequence parts => depthAll parts + 1
  | .choice branches => depthAll branches + 1

/-- The depth of the deepest of some patterns. -/
def depthAll : List Pattern → Nat
  | [] => 0
  | part :: more => max part.depth (depthAll more)

end

/-- The deepest nesting of a usable pattern. -/
def deepest : Nat := 250

/-! ## Use -/

/-- Whether a code can stand for itself. Ignoring the case of a character takes a table, and a byte
that is no ASCII character is only a part of one. -/
def Flags.admitsCode (flags : Flags) (n : Nat) : Bool :=
  if flags.unicode then !flags.ignoreCase else n < 0x80

/-- Whether an atom can be used. About bytes, everything but one of a few is not text; about
characters, the groups and the edges of words take a table. -/
def Flags.admits (flags : Flags) : Atom → Bool
  | .character _ => !(flags.unicode && flags.ignoreCase)
  | .code n => flags.admitsCode n
  | .any => flags.unicode
  | .edge => true
  | .wordEdge => !flags.unicode
  | .group negated => !flags.unicode && !negated

/-- Whether an atom can be used in brackets, where bytes are ASCII characters. -/
def Flags.admitsInSet (flags : Flags) : Atom → Bool
  | .character c => flags.admitsCode c.toNat
  | a => flags.admits a

end Pattern

namespace CharSet

open Pattern

mutual

/-- Whether a set can be used. About bytes, what is not in a set is not text. -/
def isUsable (flags : Flags) : CharSet → Bool
  | .empty => true
  | .single a => flags.admitsInSet a
  | .range first last => flags.admitsCode first && flags.admitsCode last
  | .named negated _ => if flags.unicode then !flags.ignoreCase else !negated
  | .union sets => areUsable flags sets
  | .combined _ left right => left.isUsable flags && right.isUsable flags
  | .brackets negated inner => (flags.unicode || !negated) && inner.isUsable flags

/-- Whether some sets can be used. -/
def areUsable (flags : Flags) : List CharSet → Bool
  | [] => true
  | set :: more => set.isUsable flags && areUsable flags more

end

end CharSet

namespace Pattern

mutual

/-- The flags after a pattern, if all of it can be used. -/
def check (flags : Flags) : Pattern → Option Flags
  | .atom a => if flags.admits a then some flags else none
  | .oneOf set => if set.isUsable flags then some flags else none
  | .flags change => some (flags.change change)
  | .repeated inner => inner.check flags
  | .group change inner => (inner.check (flags.change change)).map fun _ => flags
  | .sequence parts => checkAll flags parts
  | .choice branches => checkAll flags branches

/-- The flags after some patterns, if all of them can be used. -/
def checkAll (flags : Flags) : List Pattern → Option Flags
  | [] => some flags
  | part :: more => (part.check flags).bind fun flags => checkAll flags more

end

/-- Whether a pattern can be put to work. -/
def isUsable (pattern : Pattern) : Bool := pattern.depth ≤ deepest && (pattern.check {}).isSome

end Pattern

end ObjectStore
