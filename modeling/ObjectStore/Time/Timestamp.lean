import ObjectStore.Text.Decimal
import ObjectStore.Text.Utf8
import ObjectStore.Time.Instant

/-! # The text of instants

Instants are written as RFC 3339 timestamps in UTC, such as `2020-08-18T13:09:30.429Z`, and read from
timestamps in any offset.

* **`Timestamp.write`** — the text of an instant: the fraction has 0, 3, 6 or 9 digits, the fewest
  that are exact; a leap second is second 60; a year outside 0 to 9999 has a sign.
* **`Timestamp.read`** — the instant of a text. The date is checked once its day has been read, the
  time of day once its fraction has been read, and the size of the offset at the very end.
* **`Timestamp.Malformed`** — the first thing wrong with a text. -/

namespace ObjectStore.Timestamp

/-! ## Writing -/

/-- Years have four digits; outside 0 to 9999 they have a sign and at least four digits. -/
def writeYear (year : Int) : List Char :=
  if 0 ≤ year ∧ year ≤ 9999 then Decimal.fixed 4 year.toNat
  else (if year < 0 then '-' else '+') :: Decimal.atLeast 4 year.natAbs

/-- The fraction of a second in the fewest of 0, 3, 6 or 9 digits that are exact. -/
def writeFraction (nanos : Nat) : List Char :=
  if nanos = 0 then []
  else if nanos % 1000000 = 0 then '.' :: Decimal.fixed 3 (nanos / 1000000)
  else if nanos % 1000 = 0 then '.' :: Decimal.fixed 6 (nanos / 1000)
  else '.' :: Decimal.fixed 9 nanos

/-- A date as year, month and day. -/
def writeDate (d : Date) : List Char :=
  writeYear d.year ++ '-' :: Decimal.fixed 2 d.month ++ '-' :: Decimal.fixed 2 d.day

/-- The time of day of a second of the day, which is shown as second 60 when it is the leap one. -/
def writeClock (secondOfDay : Nat) (leap : Bool) : List Char :=
  let second := secondOfDay % 60 + if leap then 1 else 0
  Decimal.fixed 2 (secondOfDay / 3600) ++ ':' :: Decimal.fixed 2 (secondOfDay / 60 % 60) ++
    ':' :: Decimal.fixed 2 second

/-- The text of an instant in UTC. -/
def write (i : Instant) : List Char :=
  writeDate (Date.ofDayNumber (i.seconds / 86400)) ++
    'T' :: writeClock (i.seconds % 86400).toNat i.isLeap ++
    writeFraction (i.nanos % nanosPerSecond) ++ ['Z']

/-! ## Reading -/

/-- The first thing wrong with a timestamp. -/
inductive Malformed where
  /-- A character stands where the format has another. -/
  | invalid
  /-- The text ends too early. -/
  | tooShort
  /-- The text goes on after the timestamp. -/
  | tooLong
  /-- A part has the right form and denotes nothing. -/
  | outOfRange
  deriving DecidableEq, Repr

/-- The wording of what is wrong with a timestamp. -/
def Malformed.message : Malformed → String
  | .invalid => "input contains invalid characters"
  | .tooShort => "premature end of input"
  | .tooLong => "trailing input"
  | .outOfRange => "input is out of range"

/-- The value of a digit's byte. -/
def digit? (b : UInt8) : Option Nat := if 48 ≤ b ∧ b ≤ 57 then some (b.toNat - 48) else none

/-- Read exactly `count` digits, after those that make up `value`. -/
def readDigits : (count value : Nat) → Bytes → Except Malformed (Nat × Bytes)
  | 0, value, rest => .ok (value, rest)
  | _ + 1, _, [] => .error .tooShort
  | count + 1, value, b :: rest =>
    match digit? b with
    | some d => readDigits count (10 * value + d) rest
    | none => .error .invalid

/-- Read one byte of a given set. -/
def readByte (accepted : List UInt8) : Bytes → Except Malformed Bytes
  | [] => .error .tooShort
  | b :: rest => if b ∈ accepted then .ok rest else .error .invalid

/-- The byte of an ASCII character. -/
def ascii (c : Char) : UInt8 := c.toNat.toUInt8

/-- Read a date and check that it exists. -/
def readDate (text : Bytes) : Except Malformed (Date × Bytes) := do
  let (year, text) ← readDigits 4 0 text
  let text ← readByte [ascii '-'] text
  let (month, text) ← readDigits 2 0 text
  let text ← readByte [ascii '-'] text
  let (day, text) ← readDigits 2 0 text
  let date : Date := ⟨year, month, day⟩
  if date.IsCivil then return (date, text) else throw .outOfRange

/-- The digits that follow, up to `count`, as the first digits of a number of `count` digits. The
digits beyond those are dropped. -/
def readFractionDigits : (count value : Nat) → Bytes → Nat × Bytes
  | 0, value, text => (value, text.dropWhile fun b => (digit? b).isSome)
  | count + 1, value, [] => (value * 10 ^ (count + 1), [])
  | count + 1, value, b :: text =>
    match digit? b with
    | some d => readFractionDigits count (10 * value + d) text
    | none => (value * 10 ^ (count + 1), b :: text)

/-- Read the fraction of a second in nanoseconds, if a point announces one. -/
def readFraction : Bytes → Except Malformed (Nat × Bytes)
  | [] => .ok (0, [])
  | b :: text =>
    if b ≠ ascii '.' then .ok (0, b :: text)
    else do
      discard (readDigits 1 0 text)
      return readFractionDigits 9 0 text

/-- Read a time of day: the second of the day and the nanoseconds, which are 10⁹ more in second 60
of a minute. -/
def readClock (text : Bytes) : Except Malformed ((Nat × Nat) × Bytes) := do
  let (hour, text) ← readDigits 2 0 text
  let text ← readByte [ascii ':'] text
  let (minute, text) ← readDigits 2 0 text
  let text ← readByte [ascii ':'] text
  let (second, text) ← readDigits 2 0 text
  let (nanos, text) ← readFraction text
  if hour < 24 ∧ minute < 60 ∧ second ≤ 60 then
    let whole := 3600 * hour + 60 * minute + min second 59
    return ((whole, if second = 60 then nanosPerSecond + nanos else nanos), text)
  else throw .outOfRange

/-- Read the sign of an offset: plus, minus or the minus sign U+2212. -/
def readSign : Bytes → Except Malformed (Int × Bytes)
  | [] => .error .tooShort
  | b :: text =>
    if b = ascii '+' then .ok (1, text)
    else if b = ascii '-' then .ok (-1, text)
    else
      match b, text with
      | 0xE2, 0x88 :: 0x92 :: text => .ok (-1, text)
      | _, _ => .error .invalid

/-- Two bytes must be left before their digits are looked at. -/
def readPair (text : Bytes) : Except Malformed (Nat × Bytes) :=
  if text.length < 2 then .error .tooShort else readDigits 2 0 text

/-- Read the minutes of an offset. Digits from 60 to 99 have the right form and are out of range. -/
def readOffsetMinutes (text : Bytes) : Except Malformed (Nat × Bytes) := do
  let (minutes, text) ← readPair text
  if minutes < 60 then return (minutes, text) else throw .outOfRange

/-- Read an offset from UTC in minutes: `Z`, or a sign with hours and minutes. -/
def readOffset (text : Bytes) : Except Malformed (Int × Bytes) :=
  match text with
  | [] => .error .tooShort
  | b :: rest =>
    if b = ascii 'Z' ∨ b = ascii 'z' then .ok (0, rest)
    else do
      let (sign, text) ← readSign text
      let (hours, text) ← readPair text
      let text ← readByte [ascii ':'] text
      let (minutes, text) ← readOffsetMinutes text
      return (sign * (60 * hours + minutes), text)

/-- The length of the shortest timestamp without its offset. -/
def localLength : Nat := 19

/-- The instant that a text denotes. -/
def read (text : Bytes) : Except Malformed Instant := do
  if text.length < localLength then throw .tooShort
  let (date, text) ← readDate text
  let text ← readByte [ascii 'T', ascii 't', ascii ' '] text
  let ((second, nanos), text) ← readClock text
  let (offset, text) ← readOffset text
  if text ≠ [] then throw .tooLong
  if offset.natAbs ≥ 24 * 60 then throw .outOfRange
  match Instant.ofUnix? (86400 * date.dayNumber + second - 60 * offset) nanos with
  | some i => return i
  | none => throw .outOfRange

end ObjectStore.Timestamp
