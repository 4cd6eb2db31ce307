import ObjectStore.Lock.Proposals

/-! # Locks

A lock is tried in a single round: write one's own proposal, list all proposals, and fail if another
one is active, withdrawing one's own. Otherwise the proposal stays and records the holder. Of two
attempts, the one that lists later sees the other's proposal, so at most one of them succeeds.

* **`Lock`** — a target, the token of a party, and when its proposals expire.
* **`Lock.acquire`** — try once to take the lock.
* **`Lock.release`** — give it up. -/

namespace ObjectStore

/-- A party's lock on a target. -/
structure Lock where
  target : Key
  token : Token
  /-- When the lock's proposals stop counting. -/
  expiration : Expiration
  deriving DecidableEq, Repr

namespace Lock

open Program

/-- A lock with a chosen token, refused if the text cannot be one. -/
def withToken (target : Key) (token : String) (expiration : Expiration) :
    Result Lock :=
  (Token.ofString token).map fun token => ⟨target, token, expiration⟩

/-- A lock that never expires, with a fresh token. -/
def fresh (target : Key) : Program Lock := do
  let token ← freshToken
  return ⟨target, token, .never⟩

/-- Withdraw the proposal of an attempt that failed, telling if that fails too. The notice names
`blocked` as the target. -/
def rollBack (lock : Lock) (after : Withdrawal) (blocked : Key) : Program (Option StorageError) := do
  match ← Proposals.withdraw lock.target lock.token.text with
  | .ok () => return none
  | .error e =>
    tell (.rollbackFailed after blocked lock.token e)
    return some e

/-- Try once to take the lock. A proposal that the token already has counts as one's own and is
replaced. After any failure past the first write, one's own proposal is withdrawn. -/
def acquire (lock : Lock) : Program (Result Unit) := do
  match ← Proposals.create lock.target lock.token.text lock.expiration with
  | .error e =>
    count (.attempts .error)
    return .error e
  | .ok () =>
    match ← Proposals.checkSingle lock.target lock.token.text with
    | .ok () =>
      count (.attempts .acquired)
      tell (.lockAcquired lock.target lock.token)
      return .ok ()
    | .error (.lockConflict blocked _) =>
      count (.attempts .conflict)
      let rollback ← lock.rollBack .conflict blocked
      return .error (.lockConflict blocked rollback)
    | .error e =>
      count (.attempts .error)
      let _ ← lock.rollBack .storageError lock.target
      return .error e

/-- Give the lock up. That it was not held is no error. -/
def release (lock : Lock) : Program (Result Unit) := do
  match ← Proposals.withdraw lock.target lock.token.text with
  | .ok () =>
    count .releases
    tell (.lockReleased lock.target lock.token)
    return .ok ()
  | .error e => return .error e

end Lock

end ObjectStore
