import ObjectStore.Lock.Basic

/-! # Exclusive sections

* **`exclusively`** — run a body while holding a lock.

The body may be a program on the store, or anything that programs can be part of, such as a program
with a state of its own. -/

namespace ObjectStore

/-- Run a body while holding a lock on a key that never expires. The lock is released whether or not
the body succeeds. The body's error goes before the error of the release. -/
def exclusively {m : Type → Type} [Monad m] [MonadLiftT Program m] {α : Type} (key : Key)
    (body : m (Result α)) : m (Result α) := do
  let lock ← monadLift (Lock.fresh key)
  match ← monadLift lock.acquire with
  | .error e => return .error e
  | .ok () =>
    let result ← body
    let released ← monadLift lock.release
    match result, released with
    | .ok value, .ok () => return .ok value
    | .ok _, .error e => return .error e
    | .error e, .ok () => return .error e
    | .error e, .error failure =>
      monadLift (Program.tell (.releaseFailed key failure))
      return .error e

end ObjectStore
