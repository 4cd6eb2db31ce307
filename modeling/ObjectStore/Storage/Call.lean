import ObjectStore.Content

/-! # Storage calls

What can be asked of a store, whatever medium lies beneath it.

* **`Operation`** — the seven kinds of storage operation.
* **`Call`** — an operation with its arguments.
* **`Call.Reply`** — what a successful call returns. -/

namespace ObjectStore

/-- The kinds of storage operation. -/
inductive Operation where
  | save | load | has | list | delete | size | move
  deriving DecidableEq, Repr

/-- The stable name of an operation. -/
def Operation.name : Operation → String
  | .save => "save"
  | .load => "load"
  | .has => "exists"
  | .list => "list"
  | .delete => "delete"
  | .size => "size"
  | .move => "move"

/-- One storage call. -/
inductive Call where
  /-- Write a content under a key, replacing any entry. The content is drained first. -/
  | save (key : Key) (content : Content)
  /-- Read the entry of a key. -/
  | load (key : Key)
  /-- Ask whether a key has an entry. -/
  | has (key : Key)
  /-- Ask for the keys equal to a key or below it, ascending. -/
  | list (base : Key)
  /-- Remove the entry of a key. -/
  | delete (key : Key)
  /-- Ask for the length of a key's entry. -/
  | size (key : Key)
  /-- Give the entry of one key to another, replacing what that one had. -/
  | move (source destination : Key)

namespace Call

/-- What a successful call returns. -/
abbrev Reply : Call → Type
  | .save _ _ => Unit
  | .load _ => Content
  | .has _ => Bool
  | .list _ => List Key
  | .delete _ => Unit
  | .size _ => Nat
  | .move _ _ => Unit

/-- The kind of a call. -/
def operation : Call → Operation
  | .save _ _ => .save
  | .load _ => .load
  | .has _ => .has
  | .list _ => .list
  | .delete _ => .delete
  | .size _ => .size
  | .move _ _ => .move

/-- The keys a call names, in order. -/
def keys : Call → List Key
  | .save key _ => [key]
  | .load key => [key]
  | .has key => [key]
  | .list base => [base]
  | .delete key => [key]
  | .size key => [key]
  | .move source destination => [source, destination]

/-- The outcome of a call: its reply or an error. -/
abbrev Outcome (call : Call) : Type := Result call.Reply

end Call

/-- The stable text of how a call ended: `ok`, or the code of its error. -/
def statusText {α : Type} : Result α → String
  | .ok _ => "ok"
  | .error e => e.code

end ObjectStore
