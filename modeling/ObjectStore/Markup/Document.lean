import ObjectStore.Markup.Node

/-! # Documents

* **`Document`** — the node of a text, if it has one, and its anchored nodes.
* **`Document.read`** — read a text that holds at most one document.
* **`Document.resolve`** — the node that an alias refers to. -/

namespace ObjectStore.Markup

/-- What a text describes. -/
structure Document where
  /-- The node of the document; a text without tokens has none. -/
  root : Option Node
  /-- The anchored nodes with their numbers, in the order in which they begin. -/
  anchored : List (Nat × Node)

namespace Document

/-- What the directives of a document have said. -/
structure Directives where
  hasVersion : Bool := false
  handles : List (List Char × Bytes) := []

/-- Read the directives before a document: at most one version, which must be 1.1 or 1.2, and one
meaning for each handle. -/
def readDirectives : (fuel : Nat) → Directives → Reader Directives
  | 0, _ => throw .tooDeep
  | fuel + 1, d => do
    match ← peek with
    | some (.version major minor) =>
      if d.hasVersion then throw .repeatedDirective
      if major != 1 || (minor != 1 && minor != 2) then throw .unsupportedVersion
      skip
      readDirectives fuel { d with hasVersion := true }
    | some (.handle handle meaning) =>
      if (d.handles.lookup handle).isSome then throw .repeatedDirective
      skip
      readDirectives fuel { d with handles := d.handles ++ [(handle, meaning)] }
    | _ => return d

/-- Whether a token begins or ends a document. -/
def isBoundary : Token → Bool
  | .version _ _ => true
  | .handle _ _ => true
  | .documentStart => true
  | .documentEnd => true
  | _ => false

/-- Pass over the marks that end a document. -/
def skipEnds : (fuel : Nat) → Reader Unit
  | 0 => throw .tooDeep
  | fuel + 1 => do
    if ← accept .documentEnd then skipEnds fuel

/-- Read the only document of a text. It may begin without a mark; after a mark it may be empty. -/
def readOnly (fuel : Nat) : Reader (Option Node) := do
  match ← peek with
  | none => return none
  | some first =>
    let node ← if isBoundary first && first != .documentEnd then do
        let directives ← readDirectives fuel {}
        unless ← accept .documentStart do throw .missingDocumentStart
        modify fun s => { s with handles := directives.handles }
        if (← peek).all isBoundary then pure Node.empty else readNode fuel true false
      else readNode fuel true false
    skipEnds fuel
    match ← peek with
    | none => return some node
    | some token => throw (if isBoundary token then .severalDocuments else .missingDocumentStart)

/-- Read a text that holds at most one document. No part of it takes more steps than it has tokens,
up to a small factor. -/
def read (text : List Char) : Except Problem Document := do
  let tokens ← Token.scan text
  let (root, _) ← (readOnly (4 * tokens.length + 4)).run { tokens }
  return { root, anchored := match root with
    | some node => node.anchored
    | none => [] }

/-- The node that an alias refers to; every other node is itself. Of nodes that share a number the
last one counts. -/
def resolve (d : Document) : Node → Node
  | .alias number => (d.anchored.reverse.lookup number).getD .empty
  | node => node

end Document

end ObjectStore.Markup
