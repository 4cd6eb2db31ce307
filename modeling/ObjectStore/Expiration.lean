import ObjectStore.Time.Timestamp

/-! # Expirations

* **`Expiration`** — when a lock proposal stops counting.
* **`Expiration.encode`** and **`Expiration.decode`** — its payload: nothing for a proposal that never
  expires, otherwise the timestamp of the instant.
* **`Expiration.isActiveAt`** — whether the proposal still counts.
* **`Expiration.after`** — the expiration some time from now. -/

namespace ObjectStore

/-- When a lock proposal stops counting. -/
inductive Expiration where
  /-- It counts until it is withdrawn. -/
  | never
  /-- It counts until this instant. -/
  | at (instant : Instant)
  deriving DecidableEq, Repr, Inhabited

namespace Expiration

/-- The payload of a proposal. -/
def encode : Expiration → String
  | .never => ""
  | .at instant => String.ofList (Timestamp.write instant)

/-- Why a payload is neither empty nor a timestamp. -/
inductive Undecodable where
  /-- The payload is not a text. -/
  | utf8 (place : Utf8.Malformed)
  /-- The text is not a timestamp. -/
  | timestamp (reason : Timestamp.Malformed)
  deriving DecidableEq, Repr

/-- The wording of what is wrong with a payload. -/
def Undecodable.message : Undecodable → String
  | .utf8 place => s!"proposal payload is not UTF-8: {place.message}"
  | .timestamp reason => s!"proposal payload is not an RFC 3339 timestamp: {reason.message}"

/-- The expiration that a payload denotes. -/
def decode (payload : Bytes) : Except Undecodable Expiration :=
  if payload.isEmpty then .ok .never
  else
    match Utf8.decode payload with
    | .error place => .error (.utf8 place)
    | .ok _ =>
      match Timestamp.read payload with
      | .error reason => .error (.timestamp reason)
      | .ok instant => .ok (.at instant)

/-- Whether a proposal with this expiration still counts: its instant has not been reached. -/
def isActiveAt (now : Instant) : Expiration → Bool
  | .never => true
  | .at instant => now < instant

/-- The longest lifetime that ends: 2⁶³ − 1 milliseconds, in nanoseconds. -/
def longestLifetime : Nat := 9223372036854775807 * 1000000

/-- The expiration `seconds` and `nanos` from now, where `nanos` is less than a second. A lifetime
that is too long, or that ends beyond the range of instants, never ends. -/
def after (now : Instant) (seconds nanos : Nat) : Expiration :=
  if seconds * nanosPerSecond + nanos ≤ longestLifetime then
    match now.add? seconds nanos with
    | some instant => .at instant
    | none => .never
  else .never

/-- The text that shows an expiration. -/
def summary : Expiration → String
  | .never => "Never"
  | .at instant => s!"At({String.ofList (Timestamp.write instant)})"

end Expiration

end ObjectStore
