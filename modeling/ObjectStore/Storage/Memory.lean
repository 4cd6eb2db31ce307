import ObjectStore.Storage.Call
import ObjectStore.Storage.Entries

/-! # The store in memory

* **`MemoryStore`** — entries in memory, their running total and a limit on it.
* **`MemoryStore.apply`** — carry out one storage call.

A call that fails leaves the store as it was. -/

namespace ObjectStore

/-- Entries in memory. -/
structure MemoryStore where
  entries : Entries
  /-- The bytes stored, kept up to date by every call. -/
  total : Nat
  /-- The most bytes that may be stored; zero stands for no limit. -/
  limit : Nat
  deriving Inhabited

namespace MemoryStore

/-- The empty store with a limit. -/
def withLimit (limit : Nat) : MemoryStore := ⟨Entries.empty, 0, limit⟩

/-- The empty store without limit. -/
def unlimited : MemoryStore := withLimit 0

/-- The failure of a store that cannot grow by `additional` bytes. -/
def limitExceeded (store : MemoryStore) (additional : Nat) : StorageError :=
  .backend { cause := s!"Memory limit exceeded: current={store.total}, " ++
    s!"additional={additional}, max={store.limit}" }

/-- Whether the store may grow by `additional` bytes. -/
def hasRoom (store : MemoryStore) (additional : Nat) : Bool :=
  store.limit == 0 || store.total + additional ≤ store.limit

/-- The length of a key's entry, zero if there is none. -/
def lengthAt (store : MemoryStore) (key : Key) : Nat :=
  match store.entries.find? key with
  | some value => value.length
  | none => 0

/-- Write a value under a key. Only net growth needs room. -/
def put (store : MemoryStore) (key : Key) (value : Bytes) :
    Result Unit × MemoryStore :=
  let old := store.lengthAt key
  if old < value.length && !store.hasRoom (value.length - old) then
    (.error (store.limitExceeded (value.length - old)), store)
  else
    (.ok (), { store with
      entries := store.entries.insert key value
      total := store.total - old + value.length })

/-- Drain a content and write it under a key. -/
def save (store : MemoryStore) (key : Key) (content : Content) :
    Result Unit × MemoryStore :=
  match content.drain with
  | .ok value => store.put key value
  | .error e => (.error e, store)

/-- The value of a key. -/
def value (store : MemoryStore) (key : Key) : Result Bytes :=
  match store.entries.find? key with
  | some value => .ok value
  | none => .error (.notFound key)

/-- Remove the entry of a key. -/
def delete (store : MemoryStore) (key : Key) : Result Unit × MemoryStore :=
  match store.entries.find? key with
  | some value =>
    (.ok (), { store with
      entries := store.entries.erase key
      total := store.total - value.length })
  | none => (.error (.notFound key), store)

/-- Give the entry of one key to another. The entry is taken out first, so moving a key onto itself
replaces nothing. -/
def move (store : MemoryStore) (source destination : Key) :
    Result Unit × MemoryStore :=
  match store.entries.find? source with
  | some value =>
    let rest := store.entries.erase source
    let replaced := match rest.find? destination with
      | some old => old.length
      | none => 0
    (.ok (), { store with
      entries := rest.insert destination value
      total := store.total - replaced })
  | none => (.error (.notFound source), store)

/-- Carry out one storage call. -/
def apply (store : MemoryStore) : (call : Call) → call.Outcome × MemoryStore
  | .save key content => store.save key content
  | .load key => ((store.value key).map Content.ofBytes, store)
  | .has key => (.ok (store.entries.find? key).isSome, store)
  | .list base => (.ok (store.entries.scan base), store)
  | .delete key => store.delete key
  | .size key => ((store.value key).map List.length, store)
  | .move source destination => store.move source destination

end MemoryStore

end ObjectStore
