import ObjectStore.Time.Date

/-! # Instants

* **`Instant`** — a point of time on the UTC scale with nanosecond resolution, between the first
  moment of year −262143 and the last of year 262142.
* **`Instant.ofUnix?`** — the instant with given Unix seconds and nanoseconds, if there is one.
* **`Instant.add?`** — the instant some time later, if there is one.

A leap second shares the Unix second before it: its nanoseconds run from 10⁹ up to 2·10⁹. Only the
last second of a minute can be followed by one. Instants are ordered by seconds, then nanoseconds, so
a leap second comes after the rest of its Unix second and before the next. -/

namespace ObjectStore

/-- The nanoseconds of a second. -/
def nanosPerSecond : Nat := 1000000000

namespace Instant

/-- The Unix second that begins 1 January of year −262143. -/
def firstSecond : Int := -8334601228800

/-- The Unix second that ends 31 December of year 262142. -/
def lastSecond : Int := 8210266876799

/-- The seconds and nanoseconds that denote an instant. -/
def IsValid (seconds : Int) (nanos : Nat) : Prop :=
  firstSecond ≤ seconds ∧ seconds ≤ lastSecond ∧ nanos < 2 * nanosPerSecond ∧
    (nanosPerSecond ≤ nanos → seconds % 60 = 59)

instance (seconds : Int) (nanos : Nat) : Decidable (IsValid seconds nanos) := by
  unfold IsValid; infer_instance

end Instant

/-- A point of time. -/
structure Instant where
  /-- Seconds since 1970-01-01T00:00:00Z, leap seconds not counted. -/
  seconds : Int
  /-- Nanoseconds into that second; from 10⁹ on they lie in the leap second after it. -/
  nanos : Nat
  /-- The instant lies in range, and in a leap second only at the end of a minute. -/
  valid : Instant.IsValid seconds nanos
  deriving DecidableEq

namespace Instant

@[ext] theorem ext {a b : Instant} (hs : a.seconds = b.seconds) (hn : a.nanos = b.nanos) :
    a = b := by
  cases a; cases b; cases hs; cases hn; rfl

instance : Repr Instant := ⟨fun i _ => repr (i.seconds, i.nanos)⟩

/-- The instant with the given Unix seconds and nanoseconds, if they denote one. -/
def ofUnix? (seconds : Int) (nanos : Nat) : Option Instant :=
  if h : IsValid seconds nanos then some ⟨seconds, nanos, h⟩ else none

/-- The beginning of 1970. -/
def epoch : Instant := ⟨0, 0, by decide⟩

instance : Inhabited Instant := ⟨epoch⟩

/-- Whether an instant lies in a leap second. -/
def isLeap (i : Instant) : Bool := nanosPerSecond ≤ i.nanos

/-- One instant comes before another. -/
instance : LT Instant :=
  ⟨fun a b => a.seconds < b.seconds ∨ (a.seconds = b.seconds ∧ a.nanos < b.nanos)⟩

theorem lt_iff {a b : Instant} :
    a < b ↔ a.seconds < b.seconds ∨ (a.seconds = b.seconds ∧ a.nanos < b.nanos) := Iff.rfl

instance (a b : Instant) : Decidable (a < b) :=
  inferInstanceAs (Decidable (a.seconds < b.seconds ∨ (a.seconds = b.seconds ∧ a.nanos < b.nanos)))

/-- One instant comes no later than another. -/
instance : LE Instant := ⟨fun a b => ¬ b < a⟩

instance (a b : Instant) : Decidable (a ≤ b) := inferInstanceAs (Decidable (¬ b < a))

/-- The instant that comes `seconds` and `nanos` later, where `nanos` is less than a second; none if
it lies beyond the range. From a leap second, a sum that leaves it counts the whole leap second as
gone. -/
def add? (i : Instant) (seconds nanos : Nat) : Option Instant :=
  if i.isLeap && seconds == 0 && i.nanos + nanos < 2 * nanosPerSecond then
    ofUnix? i.seconds (i.nanos + nanos)
  else
    let sum := (if i.isLeap then i.nanos - nanosPerSecond else i.nanos) + nanos
    ofUnix? (i.seconds + seconds + (sum / nanosPerSecond : Nat)) (sum % nanosPerSecond)

end Instant

end ObjectStore
