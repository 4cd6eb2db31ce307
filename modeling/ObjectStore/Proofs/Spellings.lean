import ObjectStore.Proofs.TimestampParts

/-! # Spellings of an instant

The same instant can be written in many ways: in any offset from UTC, with any number of digits after
the seconds, and with one of several marks between its parts.

* **`Timestamp.Spelling`** — a way to write an instant; `Timestamp.Spelling.text` writes it.
* **`Timestamp.Spelling.utcSecond`** — the second that is meant, by the calendar and the clock.
* **`Timestamp.Spelling.readSpelled_text`** — every spelling is read, and read as what it spells.
* **`Expiration.decode_spelling`** — a payload denotes the civil time with the offset taken off,
  whatever the offset is. -/

namespace ObjectStore

namespace Timestamp

open Utf8

/-! ## The parts of a spelling -/

/-- What stands between a date and a time of day. -/
inductive Separator where
  | upper
  | lower
  | space
  deriving DecidableEq, Repr

/-- The character of a separator. -/
def Separator.mark : Separator → Char
  | .upper => 'T'
  | .lower => 't'
  | .space => ' '

/-- The sign of an offset. -/
inductive Sign where
  | plus
  /-- The hyphen of ASCII. -/
  | hyphen
  /-- The minus sign U+2212. -/
  | minus
  deriving DecidableEq, Repr

/-- The character of a sign. -/
def Sign.mark : Sign → Char
  | .plus => '+'
  | .hyphen => '-'
  | .minus => '\u2212'

/-- One with a sign. -/
def Sign.unit : Sign → Int
  | .plus => 1
  | .hyphen => -1
  | .minus => -1

/-- An offset from UTC. -/
inductive Zone where
  /-- None, as a letter. -/
  | zulu (small : Bool)
  /-- Some hours and minutes before UTC or after it. -/
  | shifted (sign : Sign) (hours : Fin 24) (minutes : Fin 60)
  deriving DecidableEq, Repr

namespace Zone

/-- The minutes that local clocks are ahead of UTC. -/
def offset : Zone → Int
  | zulu _ => 0
  | shifted sign hours minutes => sign.unit * (60 * (hours.val : Int) + (minutes.val : Int))

/-- The text of an offset. -/
def text : Zone → List Char
  | zulu small => [if small then 'z' else 'Z']
  | shifted sign hours minutes =>
    sign.mark :: Decimal.fixed 2 hours.val ++ ':' :: Decimal.fixed 2 minutes.val

end Zone

/-- The number that some digits go on with after a first number. -/
def numeral (first : Nat) (digits : List (Fin 10)) : Nat :=
  digits.foldl (fun n d => 10 * n + d.val) first

/-- The nanoseconds of a fraction of a second: its first nine digits. -/
def fractionNanos (digits : List (Fin 10)) : Nat :=
  numeral 0 (digits.take 9) * 10 ^ (9 - digits.length)

/-- The text of a fraction of a second, which may be missing. -/
def fractionText : List (Fin 10) → List Char
  | [] => []
  | d :: more => '.' :: (d :: more).map fun d => Decimal.digitChar d.val

/-- **A way to write an instant.** Its date exists and lies in the years 0 to 9999; second 60 is a leap
second. A fraction has any number of digits. -/
structure Spelling where
  date : Date
  civil : date.IsCivil
  year : 0 ≤ date.year ∧ date.year ≤ 9999
  separator : Separator
  hour : Fin 24
  minute : Fin 60
  second : Fin 61
  fraction : List (Fin 10)
  zone : Zone
  deriving DecidableEq, Repr

namespace Spelling

/-- The text after the separator. -/
def timeText (s : Spelling) : List Char :=
  Decimal.fixed 2 s.hour.val ++ ':' :: Decimal.fixed 2 s.minute.val ++ ':' ::
    Decimal.fixed 2 s.second.val ++ fractionText s.fraction ++ s.zone.text

/-- The text of a spelling. -/
def text (s : Spelling) : List Char := writeDate s.date ++ s.separator.mark :: s.timeText

/-- The second of the local day; second 60 counts as second 59. -/
def localSecond (s : Spelling) : Nat :=
  3600 * s.hour.val + 60 * s.minute.val + min s.second.val 59

/-- The nanoseconds into the second, 10⁹ more in second 60. -/
def nanos (s : Spelling) : Nat :=
  if s.second.val = 60 then nanosPerSecond + fractionNanos s.fraction else fractionNanos s.fraction

/-- **The second that is meant**: the days from 1970 to the date, as a calendar counts them, and the
local time of day, with the offset taken off. -/
def utcSecond (s : Spelling) : Int :=
  86400 * ((s.date.countedDays : Int) - (⟨1970, 1, 1⟩ : Date).countedDays) + s.localSecond -
    60 * s.zone.offset

/-- What is spelled. -/
def spelled (s : Spelling) : Spelled := ⟨s.date, s.localSecond, s.nanos, s.zone.offset⟩

theorem seconds_spelled (s : Spelling) : s.spelled.seconds = s.utcSecond := by
  rw [Spelled.seconds, utcSecond, ← Date.dayNumber_eq_countedDays s.civil s.year.1]
  rfl

end Spelling

/-! ## Reading the parts -/

/-- The digits of a fraction are read up to the first byte that is none. -/
theorem readFractionDigits_map (count value : Nat) (digits : List (Fin 10)) {b : UInt8}
    (hb : digit? b = none) (rest : Bytes) :
    readFractionDigits count value
        (encode (digits.map fun d => Decimal.digitChar d.val) ++ b :: rest) =
      (numeral value (digits.take count) * 10 ^ (count - digits.length), b :: rest) := by
  induction digits generalizing count value with
  | nil =>
    rw [List.map_nil, encode_nil, List.nil_append, readFractionDigits_end count value hb]
    simp [numeral]
  | cons d digits ih =>
    rw [List.map_cons, encode_cons, encodeChar_digitChar d.isLt, List.singleton_append,
      List.cons_append]
    cases count with
    | zero =>
      have hpassed : ∀ text, readFractionDigits 0 value (digitByte d.val :: text) =
          readFractionDigits 0 value text := by
        intro text
        simp [readFractionDigits_zero, digit?_digitByte _ d.isLt]
      rw [hpassed, ih 0 value]
      simp
    | succ count =>
      rw [readFractionDigits_cons, digit?_digitByte _ d.isLt]
      simp only [ih, List.take_succ_cons, numeral, List.foldl_cons, List.length_cons,
        Nat.add_sub_add_right]

/-- A fraction of any number of digits is read. -/
theorem readFraction_fractionText (digits : List (Fin 10)) {b : UInt8} (hb : digit? b = none)
    (hpoint : b ≠ ascii '.') (rest : Bytes) :
    readFraction (encode (fractionText digits) ++ b :: rest) =
      .ok (fractionNanos digits, b :: rest) := by
  cases digits with
  | nil => rw [fractionText, encode_nil, List.nil_append, readFraction, if_pos hpoint]; rfl
  | cons d more =>
    have hdigits := readFractionDigits_map 9 0 (d :: more) hb rest
    have hfirst : readDigits 1 0
        (encode ((d :: more).map fun d => Decimal.digitChar d.val) ++ b :: rest) =
          .ok (d.val, encode (more.map fun d => Decimal.digitChar d.val) ++ b :: rest) := by
      rw [List.map_cons, encode_cons, encodeChar_digitChar d.isLt, List.singleton_append,
        List.cons_append, readDigits, digit?_digitByte _ d.isLt]
      simp [readDigits]
    rw [fractionText, encode_cons_ascii (by decide), readFraction, if_neg (by simp), hfirst]
    exact congrArg Except.ok hdigits

/-- A number of two digits is read where a pair of digits is asked for. -/
theorem readPair_fixed {n : Nat} (h : n < 10 ^ 2) (rest : Bytes) :
    readPair (encode (Decimal.fixed 2 n) ++ rest) = .ok (n, rest) := by
  have hlength : ¬ (encode (Decimal.fixed 2 n) ++ rest).length < 2 := by
    rw [List.length_append, length_encode_fixed]
    omega
  rw [readPair, if_neg hlength, readDigits_of_lt h]

namespace Zone

/-- The text of an offset begins neither with a digit nor with the point of a fraction. -/
theorem exists_encode_text (zone : Zone) :
    ∃ b bytes, encode zone.text = b :: bytes ∧ digit? b = none ∧ b ≠ ascii '.' := by
  cases zone with
  | zulu small => cases small <;> exact ⟨_, _, rfl, by decide, by decide⟩
  | shifted sign hours minutes => cases sign <;> exact ⟨_, _, rfl, by decide, by decide⟩

/-- After each of the three signs, the one of three bytes too, hours and minutes are read. -/
theorem readOffset_mark (sign : Sign) (text : Bytes) :
    readOffset (encode [sign.mark] ++ text) = (do
      let (hours, text) ← readPair text
      let text ← readByte [ascii ':'] text
      let (minutes, text) ← readOffsetMinutes text
      return (sign.unit * (60 * hours + minutes), text)) := by
  cases sign <;> rfl

/-- An offset is read from its text. -/
theorem readOffset_text (zone : Zone) (rest : Bytes) :
    readOffset (encode zone.text ++ rest) = .ok (zone.offset, rest) := by
  cases zone with
  | zulu small => cases small <;> rfl
  | shifted sign hours minutes =>
    have hhours : hours.val < 10 ^ 2 := by omega
    have hminutes : minutes.val < 10 ^ 2 := by omega
    have hread : readOffsetMinutes (encode (Decimal.fixed 2 minutes.val) ++ rest) =
        .ok (minutes.val, rest) := by
      rw [readOffsetMinutes, readPair_fixed hminutes]
      simp only [bind, Except.bind, if_pos minutes.isLt]
      rfl
    have htext : encode (shifted sign hours minutes).text ++ rest = encode [sign.mark] ++
        (encode (Decimal.fixed 2 hours.val) ++
          ascii ':' :: (encode (Decimal.fixed 2 minutes.val) ++ rest)) := by
      have hcolon : (':').toNat < 0x80 := by decide
      rw [text, ← List.singleton_append, List.append_assoc, encode_append, encode_append,
        List.append_assoc, List.append_assoc, encode_cons_ascii hcolon]
    rw [htext, readOffset_mark, readPair_fixed hhours]
    simp only [bind, Except.bind, readByte_cons (List.mem_singleton_self _), hread]
    rfl

end Zone

/-! ## Reading a spelling -/

namespace Spelling

variable (s : Spelling)

/-- The bytes of what follows the separator. -/
theorem encode_timeText : encode s.timeText =
    encode (Decimal.fixed 2 s.hour.val) ++ ascii ':' ::
      (encode (Decimal.fixed 2 s.minute.val) ++ ascii ':' ::
        (encode (Decimal.fixed 2 s.second.val) ++
          (encode (fractionText s.fraction) ++ encode s.zone.text))) := by
  have hcolon : (':').toNat < 0x80 := by decide
  simp only [timeText, encode_append, List.append_assoc, List.cons_append, encode_cons,
    encodeChar_of_ascii hcolon, List.nil_append]

theorem encode_text : encode s.text =
    encode (writeDate s.date) ++ ascii s.separator.mark :: encode s.timeText := by
  have hmark : s.separator.mark.toNat < 0x80 := by cases s.separator <;> decide
  rw [text, encode_append, encode_cons, encodeChar_of_ascii hmark, List.singleton_append]

theorem ascii_mark_mem : ascii s.separator.mark ∈ [ascii 'T', ascii 't', ascii ' '] := by
  cases s.separator <;> decide

/-- The local time of day is read, and the offset is left. -/
theorem readClock_timeText : readClock (encode s.timeText) =
    .ok ((s.localSecond, s.nanos), encode s.zone.text) := by
  obtain ⟨b, bytes, hbytes, hdigit, hpoint⟩ := s.zone.exists_encode_text
  rw [encode_timeText, hbytes]
  exact readClock_parts s.hour.isLt s.minute.isLt (by omega)
    (readFraction_fractionText s.fraction hdigit hpoint bytes)

/-- No spelling is shorter than the shortest timestamp. -/
theorem localLength_le_length : ¬ (encode s.text).length < localLength := by
  rw [encode_text, encode_timeText, encode_writeDate_append, writeYear, if_pos s.year]
  simp only [List.length_append, List.length_cons, length_encode_fixed, localLength]
  omega

theorem natAbs_offset_lt : s.zone.offset.natAbs < 24 * 60 := by
  cases s.zone with
  | zulu small =>
    show (0 : Int).natAbs < 24 * 60
    decide
  | shifted sign hours minutes =>
    have hhours := hours.isLt
    have hminutes := minutes.isLt
    cases sign <;> simp only [Zone.offset, Sign.unit] <;> omega

/-- **Every spelling is read as what it spells.** -/
theorem readSpelled_text : readSpelled (encode s.text) = .ok s.spelled := by
  have hoffset : readOffset (encode s.zone.text) = .ok (s.zone.offset, []) := by
    have hread := s.zone.readOffset_text []
    rwa [List.append_nil] at hread
  have hday : ¬ s.zone.offset.natAbs ≥ 24 * 60 := Nat.not_le_of_lt s.natAbs_offset_lt
  rw [readSpelled, if_neg s.localLength_le_length, encode_text]
  simp only [readDate_writeDate s.civil s.year, bind, Except.bind, readByte_cons s.ascii_mark_mem,
    readClock_timeText, hoffset, if_neg hday]
  rfl

/-- **Every spelling is read as the instant that is meant.** -/
theorem exists_read_text : ∃ i, read (encode s.text) = .ok i ∧ i.seconds = s.utcSecond ∧
    i.nanos = s.nanos := by
  obtain ⟨i, hi, hseconds, hnanos⟩ := (readSpelled_isValid s.readSpelled_text).exists_instant?_eq
  refine ⟨i, ?_, hseconds.trans s.seconds_spelled, hnanos⟩
  rw [read_eq, s.readSpelled_text]
  simp only [bind, Except.bind, hi]

end Spelling

end Timestamp

namespace Expiration

open Timestamp

/-- The payload of a spelling is judged by reading it. -/
theorem exists_decode_text (s : Spelling) :
    ∃ i, decode (Utf8.encode s.text) = .ok (.at i) ∧ i.seconds = s.utcSecond ∧ i.nanos = s.nanos := by
  obtain ⟨i, hread, hseconds, hnanos⟩ := s.exists_read_text
  refine ⟨i, ?_, hseconds, hnanos⟩
  rw [decode_encode_text s.localLength_le_length, hread]

theorem isActiveAt_at_iff {i now : Instant} : (Expiration.at i).isActiveAt now = true ↔ now < i :=
  decide_eq_true_iff

/-- One instant counts no longer than another if it comes no later. -/
theorem forall_isActiveAt_iff {i j : Instant} :
    (∀ now, (Expiration.at i).isActiveAt now = true → (Expiration.at j).isActiveAt now = true) ↔
      i ≤ j := by
  simp only [isActiveAt_at_iff, Instant.le_iff]
  constructor
  · intro hall hlt
    have hself := hall j hlt
    rw [Instant.lt_iff] at hself
    omega
  · intro hle now hnow
    rw [Instant.lt_iff] at *
    omega

/-- **A payload denotes the civil time with the offset taken off**, in whatever offset it is written.
Every spelling is decoded, to the second that is meant and to the nanoseconds of the first nine digits.
Two spellings are decoded alike if they mean the same. The clock decides by what is meant whether a
payload counts, and one payload counts no longer than another if it means no later instant. -/
theorem decode_spelling (s : Spelling) :
    ∃ i : Instant, decode (Utf8.encode s.text) = .ok (.at i) ∧
      i.seconds = s.utcSecond ∧ i.nanos = s.nanos ∧
      (∀ now, (Expiration.at i).isActiveAt now = true ↔
        now.seconds < s.utcSecond ∨ (now.seconds = s.utcSecond ∧ now.nanos < s.nanos)) ∧
      ∀ t : Spelling,
        (decode (Utf8.encode t.text) = decode (Utf8.encode s.text) ↔
          t.utcSecond = s.utcSecond ∧ t.nanos = s.nanos) ∧
        ∀ e, decode (Utf8.encode t.text) = .ok e →
          ((∀ now, (Expiration.at i).isActiveAt now = true → e.isActiveAt now = true) ↔
            s.utcSecond < t.utcSecond ∨ (s.utcSecond = t.utcSecond ∧ s.nanos ≤ t.nanos)) := by
  obtain ⟨i, hi, hseconds, hnanos⟩ := exists_decode_text s
  refine ⟨i, hi, hseconds, hnanos, fun now => ?_, fun t => ?_⟩
  · rw [isActiveAt_at_iff, Instant.lt_iff, hseconds, hnanos]
  · obtain ⟨j, hj, hseconds', hnanos'⟩ := exists_decode_text t
    rw [hi, hj, ← hseconds, ← hnanos, ← hseconds', ← hnanos']
    constructor
    · constructor
      · intro h
        cases h
        exact ⟨rfl, rfl⟩
      · rintro ⟨hs, hn⟩
        rw [Instant.ext hs hn]
    · intro e he
      cases he
      rw [forall_isActiveAt_iff, Instant.le_iff, Instant.lt_iff]
      omega

/-- One instant in two offsets, on two days of two months. -/
example : decode (Bytes.ofString "2020-03-01T00:30:00.5+01:00") =
    decode (Bytes.ofString "2020-02-29t18:00:00.5000−05:30") := by decide +kernel

end Expiration

end ObjectStore
