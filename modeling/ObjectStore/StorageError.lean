import ObjectStore.Key

/-! # What goes wrong in a store

* **`Fault`** — a failure of the medium beneath a store: a message and the contexts put around it.
* **`StorageError`** — every way in which a storage or lock operation fails.
* **`Result`** — a value or a storage error.
* **`StorageError.code`**, **`StorageError.message`** — its stable code and its wording. -/

namespace ObjectStore

/-- A failure of the medium beneath a store. -/
structure Fault where
  /-- What went wrong. -/
  cause : String
  /-- Descriptions put around the cause one after another, the innermost first. -/
  contexts : List String := []
  deriving DecidableEq, Repr, Inhabited

/-- A fault is shown as its outermost description. -/
def Fault.message (f : Fault) : String := f.contexts.getLast?.getD f.cause

/-- A failed storage or lock operation. -/
inductive StorageError where
  /-- The key has no entry. -/
  | notFound (key : Key)
  /-- Another active proposal stands against the lock on the target. The second part is the failure
  of the attempt's own withdrawal, if that failed too. -/
  | lockConflict (target : Key) (rollback : Option StorageError)
  /-- A key or a lock token is malformed. -/
  | invalidKey (reason : String)
  /-- The medium failed. -/
  | backend (fault : Fault)
  deriving Repr, Inhabited

/-- A value or a storage error. -/
abbrev Result (α : Type) : Type := Except StorageError α

namespace StorageError

/-- Decides equality of errors, through the rollback failures inside them. -/
def decideEq : (a b : StorageError) → Decidable (a = b)
  | .notFound k, .notFound l =>
    if h : k = l then isTrue (by rw [h]) else isFalse fun e => h (by cases e; rfl)
  | .lockConflict k none, .lockConflict l none =>
    if h : k = l then isTrue (by rw [h]) else isFalse fun e => h (by cases e; rfl)
  | .lockConflict k (some a), .lockConflict l (some b) =>
    match decideEq a b with
    | isTrue hab =>
      if h : k = l then isTrue (by rw [h, hab]) else isFalse fun e => h (by cases e; rfl)
    | isFalse hab => isFalse fun e => hab (by cases e; rfl)
  | .invalidKey s, .invalidKey t =>
    if h : s = t then isTrue (by rw [h]) else isFalse fun e => h (by cases e; rfl)
  | .backend f, .backend g =>
    if h : f = g then isTrue (by rw [h]) else isFalse fun e => h (by cases e; rfl)
  | .lockConflict _ none, .lockConflict _ (some _) => isFalse nofun
  | .lockConflict _ (some _), .lockConflict _ none => isFalse nofun
  | .notFound _, .lockConflict _ _ => isFalse nofun
  | .notFound _, .invalidKey _ => isFalse nofun
  | .notFound _, .backend _ => isFalse nofun
  | .lockConflict _ _, .notFound _ => isFalse nofun
  | .lockConflict _ _, .invalidKey _ => isFalse nofun
  | .lockConflict _ _, .backend _ => isFalse nofun
  | .invalidKey _, .notFound _ => isFalse nofun
  | .invalidKey _, .lockConflict _ _ => isFalse nofun
  | .invalidKey _, .backend _ => isFalse nofun
  | .backend _, .notFound _ => isFalse nofun
  | .backend _, .lockConflict _ _ => isFalse nofun
  | .backend _, .invalidKey _ => isFalse nofun

instance : DecidableEq StorageError := decideEq

/-- The stable code of an error. -/
def code : StorageError → String
  | .notFound _ => "NotFound"
  | .lockConflict _ _ => "LockConflict"
  | .invalidKey _ => "InvalidKey"
  | .backend _ => "BackendFailure"

/-- The wording of an error. -/
def message : StorageError → String
  | .notFound key => s!"No value for key: {key.toString}"
  | .lockConflict target none =>
    s!"Failed to acquire lock on {target.toString}: another proposal is active"
  | .lockConflict target (some e) =>
    s!"Failed to acquire lock on {target.toString}: another proposal is active" ++
      s!" (rollback failed: {e.message})"
  | .invalidKey reason => s!"Invalid key: {reason}"
  | .backend fault => s!"Storage backend failure: {fault.message}"

/-- Whether the error says that an entry is absent. -/
def isNotFound : StorageError → Bool
  | .notFound _ => true
  | _ => false

/-- Whether the error says that another proposal is active. -/
def isConflict : StorageError → Bool
  | .lockConflict _ _ => true
  | _ => false

/-- An error seen from where only its wording counts. -/
def toFault (e : StorageError) : Fault := { cause := e.message }

end StorageError

end ObjectStore
