import ObjectStore.Program

/-! # Lock proposals

A lock on a target is not stored itself. Each party that wants it writes a **proposal**: an entry
below the target's proposal root, named by the party's token, whose payload tells when it stops
counting. Expiration is judged when proposals are read; nothing removes them in the background.

* **`Proposals.root`**, **`Proposals.key`** — where proposals are kept.
* **`Proposals.create`**, **`Proposals.withdraw`** — write a proposal and remove it.
* **`Proposals.tokens`** — the tokens that have a proposal.
* **`Proposals.checkSingle`** — whether a token's proposal is the only active one. -/

namespace ObjectStore

/-- The segment that the proposals of a target stand below. -/
def proposalsSegment : String := ".lock-proposals"

namespace Proposals

open Program

/-- The key that the proposals of a target stand below. -/
def root (target : Key) : Key := target.child proposalsSegment

/-- The key of a token's proposal. -/
def key (target : Key) (token : String) : Key := (root target).child token

/-- Write the proposal of a token, replacing any it has. -/
def create (target : Key) (token : String) (expiration : Expiration) : Program (Result Unit) := do
  match ← ask (.save (key target token) (.ofBytes (Bytes.ofString expiration.encode))) with
  | .ok () =>
    tell (.proposalRegistered target token expiration)
    return .ok ()
  | .error e => return .error e

/-- The names of the keys that stand immediately below a root, in the order of the keys. -/
def childNames (base : Key) (keys : List Key) : List String :=
  (keys.filter fun k => k.parent == some base).filterMap Key.name

/-- The tokens that have a proposal, in the order of their keys. -/
def tokens (target : Key) : Program (Result (List String)) := do
  match ← ask (.list (root target)) with
  | .ok keys => return .ok (childNames (root target) keys)
  | .error e => return .error e

/-- Whether a payload counts at an instant. One that cannot be decoded counts for ever. -/
def payloadIsActive (payload : Bytes) (now : Instant) : Bool :=
  match Expiration.decode payload with
  | .ok expiration => expiration.isActiveAt now
  | .error _ => true

/-- Judge one payload, telling if it cannot be decoded. -/
def judge (target : Key) (token : String) (payload : Bytes) (now : Instant) : Program Bool := do
  match Expiration.decode payload with
  | .ok _ => pure ()
  | .error reason => tell (.unreadableProposal target token reason)
  return payloadIsActive payload now

/-- The payload of a token's proposal, or nothing if it is gone. -/
def payload (target : Key) (token : String) : Program (Result (Option Bytes)) := do
  match ← ask (.load (key target token)) with
  | .ok content => return content.drain.map some
  | .error e => return if e.isNotFound then .ok none else .error e

/-- Look for an active proposal among those of the given tokens, passing over one's own. A proposal
removed since it was listed counts as absent; an expired one is left in place. -/
def checkAgainst (target : Key) (own : String) (now : Instant) : List String → Program (Result Unit)
  | [] => return .ok ()
  | other :: more =>
    if other = own then checkAgainst target own now more
    else do
      match ← payload target other with
      | .error e => return .error e
      | .ok none => checkAgainst target own now more
      | .ok (some bytes) =>
        if ← judge target other bytes now then
          tell (.heldByAnother target other)
          return .error (.lockConflict target none)
        else
          tell (.expiredProposalIgnored target other)
          checkAgainst target own now more

/-- Succeed if no proposal but the token's own is active. The clock is read once, before the
proposals are listed. -/
def checkSingle (target : Key) (token : String) : Program (Result Unit) := do
  let now ← Program.now
  match ← tokens target with
  | .ok others => checkAgainst target token now others
  | .error e => return .error e

/-- Remove the proposal of a token. That there is none is no error. -/
def withdraw (target : Key) (token : String) : Program (Result Unit) := do
  match ← ask (.delete (key target token)) with
  | .ok () => return .ok ()
  | .error e => return if e.isNotFound then .ok () else .error e

end Proposals

end ObjectStore
