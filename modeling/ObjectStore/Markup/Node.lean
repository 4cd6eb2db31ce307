import ObjectStore.Markup.Layout

/-! # Nodes

* **`Node`** — the tree that a document describes. An anchored node has a number, and an alias refers
  to one.
* **`Reading`** — what is known while tokens are read: those that are left, the meaning of the tag
  handles, and the anchors so far.
* **`readNode`** — read one node.

Reading a node takes at least one token for every node it contains but the empty ones, which stand
for a missing key or value. -/

namespace ObjectStore.Markup

/-- The tree that a document describes. -/
inductive Node where
  /-- A text. -/
  | scalar (anchor : Option Nat) (tag : Option Bytes) (style : Style) (text : List Char)
  /-- Some nodes in order. -/
  | sequence (anchor : Option Nat) (items : List Node)
  /-- Some pairs of a key and a value, in order. -/
  | mapping (anchor : Option Nat) (pairs : List (Node × Node))
  /-- The node that has an anchor. -/
  | alias (anchor : Nat)

namespace Node

/-- The node that stands where nothing is written. -/
def empty : Node := .scalar none none .plain []

instance : Inhabited Node := ⟨empty⟩

mutual

/-- The anchored nodes of a tree with their numbers, in the order in which they begin. -/
def anchored : Node → List (Nat × Node)
  | .scalar anchor tag style text =>
    (anchor.map fun n => (n, .scalar anchor tag style text)).toList
  | .sequence anchor items =>
    (anchor.map fun n => (n, .sequence anchor items)).toList ++ anchoredItems items
  | .mapping anchor pairs =>
    (anchor.map fun n => (n, .mapping anchor pairs)).toList ++ anchoredPairs pairs
  | .alias _ => []

/-- The anchored nodes of some trees. -/
def anchoredItems : List Node → List (Nat × Node)
  | [] => []
  | item :: more => item.anchored ++ anchoredItems more

/-- The anchored nodes of some pairs of trees. -/
def anchoredPairs : List (Node × Node) → List (Nat × Node)
  | [] => []
  | (key, value) :: more => key.anchored ++ (value.anchored ++ anchoredPairs more)

end

end Node

/-! ## Reading tokens -/

/-- What is known while tokens are read. -/
structure Reading where
  /-- The tokens that are left. -/
  tokens : List Token
  /-- What the tag handles stand for. -/
  handles : List (List Char × Bytes) := []
  /-- The anchors so far with their numbers, the latest first. -/
  anchors : List (List Char × Nat) := []

/-- Readers of tokens. -/
abbrev Reader : Type → Type := StateT Reading (Except Problem)

/-- The next token. -/
def peek : Reader (Option Token) := do return (← get).tokens.head?

/-- Pass over the next token. -/
def skip : Reader Unit := modify fun s => { s with tokens := s.tokens.tail }

/-- Pass over a token if it comes next. -/
def accept (token : Token) : Reader Bool := do
  if (← peek) == some token then
    skip
    return true
  else return false

/-- Whether one of some tokens comes next, or none is left. -/
def seesOneOf (tokens : List Token) : Reader Bool := do
  match ← peek with
  | none => return true
  | some token => return tokens.contains token

/-- Remember an anchor. Its number is how many different anchors there are before it, so that a name
given again takes a new number once. -/
def newAnchor (name : List Char) : Reader Nat :=
  modifyGet fun s =>
    let number := (s.anchors.map Prod.fst).eraseDups.length
    (number, { s with anchors := (name, number) :: s.anchors })

/-- The tag handles that need no directive. -/
def defaultHandles : List (List Char × Bytes) :=
  [(['!'], Bytes.ofString "!"), (['!', '!'], Bytes.ofString "tag:yaml.org,2002:")]

/-- The tag that a handle and a suffix denote. -/
def fullTag (handle : List Char) (suffix : Bytes) : Reader Bytes := do
  if handle.isEmpty then return suffix
  match ((← get).handles ++ defaultHandles).lookup handle with
  | some meaning => return meaning ++ suffix
  | none => throw .undefinedHandle

/-- Pass over an anchor. -/
def readAnchor : Reader (Option Nat) := do
  match ← peek with
  | some (.anchor name) =>
    skip
    return some (← newAnchor name)
  | _ => return none

/-- Pass over the parts of a tag. -/
def readTagParts : Reader (Option (List Char × Bytes)) := do
  match ← peek with
  | some (.tag handle suffix) =>
    skip
    return some (handle, suffix)
  | _ => return none

/-- Pass over an anchor and a tag in either order. -/
def readProperties : Reader (Option Nat × Option Bytes) := do
  let first ← readAnchor
  let parts ← readTagParts
  let anchor ← if first.isNone && parts.isSome then readAnchor else pure first
  match parts with
  | some (handle, suffix) => return (anchor, some (← fullTag handle suffix))
  | none => return (anchor, none)

/-- The tokens after which nothing is written where a value could stand in a block. -/
def blockEnds : List Token := [.key, .value, .blockEnd]

mutual

/-- Read a node. Block collections may stand in blocks only, and sequences without indentation only
where a key or value of a block mapping can. -/
def readNode : (fuel : Nat) → (inBlock unindented : Bool) → Reader Node
  | 0, _, _ => throw .tooDeep
  | fuel + 1, inBlock, unindented => do
    if let some (.alias name) ← peek then
      skip
      match (← get).anchors.lookup name with
      | some anchor => return .alias anchor
      | none => throw .undefinedAlias
    let (anchor, tag) ← readProperties
    match ← peek with
    | some .blockEntry =>
      if unindented then return .sequence anchor (← readUnindented fuel)
      else emptyNode anchor tag
    | some (.scalar style text) =>
      skip
      return .scalar anchor tag style text
    | some .flowSequenceStart =>
      skip
      return .sequence anchor (← readFlowSequence fuel true)
    | some .flowMappingStart =>
      skip
      return .mapping anchor (← readFlowMapping fuel true)
    | some .blockSequenceStart =>
      if inBlock then
        skip
        return .sequence anchor (← readBlockSequence fuel)
      else emptyNode anchor tag
    | some .blockMappingStart =>
      if inBlock then
        skip
        return .mapping anchor (← readBlockMapping fuel)
      else emptyNode anchor tag
    | _ => emptyNode anchor tag
where
  /-- Without content, properties make an empty node; nothing at all makes none. -/
  emptyNode (anchor : Option Nat) (tag : Option Bytes) : Reader Node :=
    if anchor.isSome || tag.isSome then return .scalar anchor tag .plain []
    else throw .missingNode

/-- Read the entries of a block sequence. -/
def readBlockSequence : (fuel : Nat) → Reader (List Node)
  | 0 => throw .tooDeep
  | fuel + 1 => do
    if ← accept .blockEntry then
      let item ← if ← seesOneOf [.blockEntry, .blockEnd] then pure Node.empty
        else readNode fuel true false
      return item :: (← readBlockSequence fuel)
    else if ← accept .blockEnd then return []
    else throw .brokenCollection

/-- Read the entries of a sequence that is not indented. -/
def readUnindented : (fuel : Nat) → Reader (List Node)
  | 0 => throw .tooDeep
  | fuel + 1 => do
    if ← accept .blockEntry then
      let item ← if ← seesOneOf (.blockEntry :: blockEnds) then pure Node.empty
        else readNode fuel true false
      return item :: (← readUnindented fuel)
    else return []

/-- Read the pairs of a block mapping. -/
def readBlockMapping : (fuel : Nat) → Reader (List (Node × Node))
  | 0 => throw .tooDeep
  | fuel + 1 => do
    if ← accept .key then
      let key ← if ← seesOneOf blockEnds then pure Node.empty else readNode fuel true true
      let value ← readBlockValue fuel
      return (key, value) :: (← readBlockMapping fuel)
    else if ← accept .blockEnd then return []
    else throw .brokenCollection

/-- Read the value of a pair in a block mapping, if it has one. -/
def readBlockValue : (fuel : Nat) → Reader Node
  | 0 => throw .tooDeep
  | fuel + 1 => do
    if ← accept .value then
      if ← seesOneOf blockEnds then return .empty else readNode fuel true true
    else return .empty

/-- Read the entries of a flow sequence. A key makes a mapping of one pair. -/
def readFlowSequence : (fuel : Nat) → (first : Bool) → Reader (List Node)
  | 0, _ => throw .tooDeep
  | fuel + 1, first => do
    if ← accept .flowSequenceEnd then return []
    unless first do
      unless ← accept .flowEntry do throw .brokenCollection
    if ← accept .flowSequenceEnd then return []
    let item ← if ← accept .key then readFlowPair fuel else readNode fuel false false
    return item :: (← readFlowSequence fuel false)

/-- Read the single pair of a mapping inside a flow sequence. Where the key is missing, the token in
its place is passed over. -/
def readFlowPair : (fuel : Nat) → Reader Node
  | 0 => throw .tooDeep
  | fuel + 1 => do
    let key ← if ← seesOneOf [.value, .flowEntry, .flowSequenceEnd] then
        skip
        pure Node.empty
      else readNode fuel false false
    let value ← if ← accept .value then
        if ← seesOneOf [.flowEntry, .flowSequenceEnd] then pure Node.empty
        else readNode fuel false false
      else pure Node.empty
    return .mapping none [(key, value)]

/-- Read the pairs of a flow mapping. -/
def readFlowMapping : (fuel : Nat) → (first : Bool) → Reader (List (Node × Node))
  | 0, _ => throw .tooDeep
  | fuel + 1, first => do
    if ← accept .flowMappingEnd then return []
    unless first do
      unless ← accept .flowEntry do throw .brokenCollection
    if ← accept .flowMappingEnd then return []
    let pair ← if ← accept .key then do
        let key ← if ← seesOneOf [.value, .flowEntry, .flowMappingEnd] then pure Node.empty
          else readNode fuel false false
        let value ← if ← accept .value then
            if ← seesOneOf [.flowEntry, .flowMappingEnd] then pure Node.empty
            else readNode fuel false false
          else pure Node.empty
        pure (key, value)
      else do
        let key ← readNode fuel false false
        pure (key, Node.empty)
    return pair :: (← readFlowMapping fuel false)

end

end ObjectStore.Markup
