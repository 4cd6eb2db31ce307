import ObjectStore.Expiration
import ObjectStore.Markup.Document
import ObjectStore.Signal.Notice
import ObjectStore.Storage.Memory

/-! # Settings

* **`Settings`** — how the store, the locks and the log are set up.
* **`Settings.load`** — read settings from the content of a file.
* **`StorageSettings.openStore`** — the store that the settings ask for.

Every field has a default, and fields that are not known are passed over. An empty value or an empty
file stands for a section without fields. -/

namespace ObjectStore

/-- How the store is set up. -/
structure StorageSettings where
  /-- The kind of store. -/
  backend : String := "memory"
  /-- The most bytes a store in memory holds; zero stands for no limit. -/
  maxSizeBytes : Nat := 0
  deriving DecidableEq, Repr

/-- How locks are set up. -/
structure LockSettings where
  /-- The lifetime of proposals; without it they never expire. -/
  expirationSeconds : Option Nat := none
  deriving DecidableEq, Repr

/-- How the log is set up. -/
structure LoggingSettings where
  /-- Which notices are shown. -/
  level : String := "info"
  /-- In which form they are shown. -/
  format : String := "text"
  deriving DecidableEq, Repr

/-- How everything is set up. -/
structure Settings where
  storage : StorageSettings := {}
  lock : LockSettings := {}
  logging : LoggingSettings := {}
  deriving DecidableEq, Repr

/-- The expiration of a proposal made now. -/
def LockSettings.expiration (settings : LockSettings) (now : Instant) : Expiration :=
  match settings.expirationSeconds with
  | some seconds => .after now seconds 0
  | none => .never

/-- The store that the settings ask for, with what it tells as its life begins. -/
def StorageSettings.openStore (settings : StorageSettings) :
    Except Fault (MemoryStore × List Notice) :=
  if settings.backend == "memory" then
    .ok (.withLimit settings.maxSizeBytes, [.storeInitialized settings.maxSizeBytes])
  else .error { cause := s!"Unsupported storage backend: {settings.backend}" }

namespace Settings

open Markup

/-- Why there are no settings. -/
inductive Unusable where
  /-- There is no file, or it is not a text. -/
  | unreadable
  /-- The text is not a document. -/
  | malformed (problem : Problem)
  /-- The document does not have the form of settings. -/
  | mismatched
  deriving DecidableEq, Repr

/-! ## Values -/

/-- The number that some digits denote, if there are any and it is below 2⁶⁴. -/
def digitsValue? (base : Nat) (digits : List Char) : Option Nat :=
  if digits.isEmpty then none
  else do
    let values ← digits.mapM fun d => (hexDigit? d).filter (· < base)
    let n := values.foldl (fun n v => base * n + v) 0
    if n < UInt64.size then some n else none

/-- Whether some characters are a text rather than a number: digits after a leading zero. -/
def hasLeadingZero : List Char → Bool
  | '0' :: d :: more => (d :: more).all fun c => (decimalDigit? c).isSome
  | _ => false

/-- The number that a plain scalar denotes, in decimal or after `0x`, `0o` or `0b`; one plus sign may
come first. -/
def number? (text : List Char) : Option Nat :=
  let unsigned := match text with
    | '+' :: rest => rest
    | text => text
  let prefixed := match unsigned with
    | '0' :: 'x' :: digits => digitsValue? 16 digits
    | '0' :: 'o' :: digits => digitsValue? 8 digits
    | '0' :: 'b' :: digits => digitsValue? 2 digits
    | _ => none
  match prefixed with
  | some n => some n
  | none => if hasLeadingZero unsigned then none else digitsValue? 10 unsigned

/-- The words that stand for no value. -/
def isNull (text : List Char) : Bool :=
  text == ['n', 'u', 'l', 'l'] || text == ['N', 'u', 'l', 'l'] || text == ['N', 'U', 'L', 'L'] ||
    text == ['~']

/-- The tag of numbers. -/
def numberTag : Bytes := Bytes.ofString "tag:yaml.org,2002:int"

/-- The tag of no value. -/
def nullTag : Bytes := Bytes.ofString "tag:yaml.org,2002:null"

/-! ## Nodes -/

/-- The text of a scalar of any kind. -/
def text (d : Document) (node : Node) : Except Unusable String :=
  match d.resolve node with
  | .scalar _ _ _ text => .ok (String.ofList text)
  | _ => .error .mismatched

/-- The number of a scalar, which must be plain, or literal and tagged as a number. -/
def number (d : Document) (node : Node) : Except Unusable Nat :=
  match d.resolve node with
  | .scalar _ tag style text =>
    if style == .plain || (style == .literal && tag == some numberTag) then
      match number? text with
      | some n => .ok n
      | none => .error .mismatched
    else .error .mismatched
  | _ => .error .mismatched

/-- The number of a scalar, or none for an empty plain scalar and for a null. A plain scalar tagged as
null must be one. -/
def optionalNumber (d : Document) (node : Node) : Except Unusable (Option Nat) :=
  match d.resolve node with
  | .scalar _ none .plain text =>
    if text.isEmpty || isNull text then .ok none else some <$> number d node
  | .scalar _ (some tag) .plain text =>
    if tag == nullTag then if isNull text then .ok none else .error .mismatched
    else some <$> number d node
  | _ => some <$> number d node

/-- The pairs of a section: those of a mapping, and none for an empty plain scalar. -/
def pairs (d : Document) (node : Node) : Except Unusable (List (Node × Node)) :=
  match d.resolve node with
  | .mapping _ pairs => .ok pairs
  | .scalar _ _ .plain [] => .ok []
  | _ => .error .mismatched

/-- The fields of a section that are known, by their names. No known field may occur twice. -/
def fields (d : Document) (known : List String) :
    List (Node × Node) → Except Unusable (List (String × Node))
  | [] => .ok []
  | (key, value) :: more => do
    let name ← text d key
    let others ← fields d known more
    if !known.contains name then return others
    else if (others.lookup name).isSome then throw .mismatched
    else return (name, value) :: others

/-- A field's value, or its default if the section does not have it. -/
def fieldOr {α : Type} (fields : List (String × Node)) (name : String) (default : α)
    (read : Node → Except Unusable α) : Except Unusable α :=
  match fields.lookup name with
  | some node => read node
  | none => .ok default

/-- The known fields of the section at a node. -/
def sectionFields (d : Document) (known : List String) (node : Node) :
    Except Unusable (List (String × Node)) := do
  fields d known (← pairs d node)

/-! ## Sections -/

/-- The settings of the store in memory. -/
def readMaxSize (d : Document) (node : Node) : Except Unusable Nat := do
  let fs ← sectionFields d ["max_size_bytes"] node
  fieldOr fs "max_size_bytes" 0 (number d)

/-- The settings of the store. -/
def readStorage (d : Document) (node : Node) : Except Unusable StorageSettings := do
  let fs ← sectionFields d ["backend", "memory"] node
  let default : StorageSettings := {}
  return {
    backend := ← fieldOr fs "backend" default.backend (text d)
    maxSizeBytes := ← fieldOr fs "memory" default.maxSizeBytes (readMaxSize d) }

/-- The settings of locks. -/
def readLock (d : Document) (node : Node) : Except Unusable LockSettings := do
  let fs ← sectionFields d ["expiration_seconds"] node
  return { expirationSeconds := ← fieldOr fs "expiration_seconds" none (optionalNumber d) }

/-- The settings of the log. -/
def readLogging (d : Document) (node : Node) : Except Unusable LoggingSettings := do
  let fs ← sectionFields d ["level", "format"] node
  let default : LoggingSettings := {}
  return {
    level := ← fieldOr fs "level" default.level (text d)
    format := ← fieldOr fs "format" default.format (text d) }

/-- The settings that a document describes. -/
def ofDocument (d : Document) : Except Unusable Settings := do
  match d.root with
  | none => return {}
  | some node =>
    let fs ← sectionFields d ["storage", "lock", "logging"] node
    return {
      storage := ← fieldOr fs "storage" {} (readStorage d)
      lock := ← fieldOr fs "lock" {} (readLock d)
      logging := ← fieldOr fs "logging" {} (readLogging d) }

/-- The settings in the content of a file, if there is one. -/
def load (file : Option Bytes) : Except Unusable Settings :=
  match file.map Utf8.decode with
  | some (.ok text) =>
    match Document.read text with
    | .ok document => ofDocument document
    | .error problem => .error (.malformed problem)
  | _ => .error .unreadable

end Settings

end ObjectStore
