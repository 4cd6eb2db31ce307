import ObjectStore.Expiration
import ObjectStore.Lock.Token

/-! # Notices

What a store and its locks tell about their work while they do it.

* **`Notice`** — the things worth telling.
* **`Notice.severity`**, **`Notice.origin`**, **`Notice.message`**, **`Notice.fields`** — how a notice
  is shown. -/

namespace ObjectStore

/-- How much a notice matters. -/
inductive Severity where
  | trace | debug | info | warn | error
  deriving DecidableEq, Repr, Inhabited

namespace Severity

/-- The name of a severity. -/
def name : Severity → String
  | .trace => "TRACE"
  | .debug => "DEBUG"
  | .info => "INFO"
  | .warn => "WARN"
  | .error => "ERROR"

/-- The rank of a severity, from 1 for the gravest to 5 for the least. -/
def rank : Severity → Nat
  | .error => 1
  | .warn => 2
  | .info => 3
  | .debug => 4
  | .trace => 5

end Severity

/-- Why an attempt withdrew its proposal. -/
inductive Withdrawal where
  | conflict | storageError
  deriving DecidableEq, Repr

/-- What a store and its locks tell. -/
inductive Notice where
  /-- A store in memory began its life. -/
  | storeInitialized (limit : Nat)
  /-- A proposal was written. -/
  | proposalRegistered (target : Key) (token : String) (expiration : Expiration)
  /-- A proposal's payload has no meaning. -/
  | unreadableProposal (target : Key) (token : String) (reason : Expiration.Undecodable)
  /-- An active proposal stands in the way. -/
  | heldByAnother (target : Key) (holder : String)
  /-- A proposal no longer counts. -/
  | expiredProposalIgnored (target : Key) (token : String)
  /-- A lock was taken. -/
  | lockAcquired (target : Key) (token : Token)
  /-- A lock was given up. -/
  | lockReleased (target : Key) (token : Token)
  /-- A failed attempt could not withdraw its proposal. -/
  | rollbackFailed (after : Withdrawal) (target : Key) (token : Token) (failure : StorageError)
  /-- A lock could not be given up after the work under it had failed. -/
  | releaseFailed (key : Key) (failure : StorageError)
  deriving DecidableEq, Repr

/-- The value of a notice's field. -/
inductive FieldValue where
  /-- A number. -/
  | number (n : Nat)
  /-- A text that stands in quotes among other fields. -/
  | quoted (text : String)
  /-- A text that stands as it is. -/
  | plain (text : String)
  deriving DecidableEq, Repr

namespace Notice

/-- How much a notice matters. -/
def severity : Notice → Severity
  | .storeInitialized _ => .info
  | .proposalRegistered .. => .debug
  | .unreadableProposal .. => .warn
  | .heldByAnother .. => .debug
  | .expiredProposalIgnored .. => .debug
  | .lockAcquired .. => .debug
  | .lockReleased .. => .debug
  | .rollbackFailed .. => .warn
  | .releaseFailed .. => .warn

/-- The part of the program that a notice comes from. -/
def origin : Notice → String
  | .storeInitialized _ => "asto::storage::memory"
  | .proposalRegistered .. => "asto::lock::proposals"
  | .unreadableProposal .. => "asto::lock::proposals"
  | .heldByAnother .. => "asto::lock::proposals"
  | .expiredProposalIgnored .. => "asto::lock::proposals"
  | .lockAcquired .. => "asto::lock::storage"
  | .lockReleased .. => "asto::lock::storage"
  | .rollbackFailed .. => "asto::lock::storage"
  | .releaseFailed .. => "asto::lock"

/-- What a notice says. -/
def message : Notice → String
  | .storeInitialized _ => "In-memory storage initialized"
  | .proposalRegistered .. => "Lock proposal registered"
  | .unreadableProposal .. => "Unreadable lock proposal, treating as never expiring"
  | .heldByAnother .. => "Lock held by another proposal"
  | .expiredProposalIgnored .. => "Ignoring expired lock proposal"
  | .lockAcquired .. => "Lock acquired"
  | .lockReleased .. => "Lock released"
  | .rollbackFailed .conflict .. => "Failed to roll back lock proposal after conflict"
  | .rollbackFailed .storageError .. => "Failed to roll back lock proposal after storage error"
  | .releaseFailed .. => "Failed to release lock after failed operation"

/-- The fields of a notice, in the order in which they are shown. -/
def fields : Notice → List (String × FieldValue)
  | .storeInitialized limit => [("max_size_bytes", .number limit)]
  | .proposalRegistered target token expiration =>
    [("target_key", .plain target.toString), ("token", .quoted token),
      ("expiration", .plain expiration.summary)]
  | .unreadableProposal target token reason =>
    [("target_key", .plain target.toString), ("token", .plain token),
      ("error", .plain reason.message)]
  | .heldByAnother target holder =>
    [("target_key", .plain target.toString), ("holder", .plain holder)]
  | .expiredProposalIgnored target token =>
    [("target_key", .plain target.toString), ("token", .plain token)]
  | .lockAcquired target token =>
    [("target_key", .plain target.toString), ("token", .plain token.text)]
  | .lockReleased target token =>
    [("target_key", .plain target.toString), ("token", .plain token.text)]
  | .rollbackFailed _ target token failure =>
    [("target_key", .plain target.toString), ("token", .plain token.text),
      ("error", .plain failure.message)]
  | .releaseFailed key failure =>
    [("key", .plain key.toString), ("error", .plain failure.message)]

end Notice

end ObjectStore
