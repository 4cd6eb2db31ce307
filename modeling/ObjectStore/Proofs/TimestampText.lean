import Mathlib.Tactic.Ring
import ObjectStore.Expiration
import ObjectStore.Proofs.Calendar
import ObjectStore.Proofs.TextBytes

/-! # Timestamps read back

* **`Timestamp.read_write`** — an instant of the years 0 to 9999 is read back from its text.
* **`Timestamp.read_write_eq_error`** — the text of any other instant is refused.
* **`Expiration.decode_encode`**, **`Expiration.decode_encode_eq_error`** — the same for
  payloads. -/

namespace ObjectStore

/-! ## Texts of ASCII characters -/

namespace Utf8

theorem encodeChar_of_ascii {c : Char} (h : c.toNat < 0x80) :
    encodeChar c = [Timestamp.ascii c] := by
  simp [encodeChar, Timestamp.ascii, h]

end Utf8

namespace Timestamp

open Utf8

/-! ## Digits -/

/-- The byte of a decimal digit. -/
def digitByte (d : Nat) : UInt8 := (48 + d).toUInt8

theorem toNat_digitChar {d : Nat} (h : d < 10) : (Decimal.digitChar d).toNat = 48 + d := by
  have hvalid : (48 + d).isValidChar := .inl (by omega)
  rw [Decimal.digitChar, Char.ofNat, dif_pos hvalid]
  rfl

theorem encodeChar_digitChar {d : Nat} (h : d < 10) :
    encodeChar (Decimal.digitChar d) = [digitByte d] := by
  have hnat := toNat_digitChar h
  rw [encodeChar_of_ascii (by omega), ascii, hnat, digitByte]

theorem toNat_of_mem_fixed {width n : Nat} {c : Char} (h : c ∈ Decimal.fixed width n) :
    48 ≤ c.toNat ∧ c.toNat ≤ 57 := by
  induction width generalizing n with
  | zero => cases h
  | succ width ih =>
    rw [Decimal.fixed, List.mem_append, List.mem_singleton] at h
    rcases h with h | rfl
    · exact ih h
    · have hlt : n % 10 < 10 := Nat.mod_lt _ (by decide)
      rw [toNat_digitChar hlt]
      omega

@[simp] theorem digit?_digitByte : ∀ d < 10, digit? (digitByte d) = some d := by decide

theorem encode_fixed_succ (width n : Nat) :
    encode (Decimal.fixed (width + 1) n) =
      encode (Decimal.fixed width (n / 10)) ++ [digitByte (n % 10)] := by
  rw [Decimal.fixed, encode_append, encode_cons, encodeChar_digitChar (Nat.mod_lt _ (by decide)),
    encode_nil, List.append_nil]

theorem length_encode_fixed (width n : Nat) : (encode (Decimal.fixed width n)).length = width := by
  induction width generalizing n with
  | zero => rfl
  | succ width ih => rw [encode_fixed_succ, List.length_append, ih]; rfl

/-- The last digits of a number are the last digit after those of its tenth. -/
theorem mod_pow_succ (width n : Nat) :
    n % 10 ^ (width + 1) = 10 * (n / 10 % 10 ^ width) + n % 10 := by
  rw [Nat.pow_succ, Nat.mul_comm, Nat.mod_mul]
  omega

/-- Reading digits in two goes. -/
theorem readDigits_add (count more value : Nat) (text : Bytes) :
    readDigits (count + more) value text =
      readDigits count value text >>= fun r => readDigits more r.1 r.2 := by
  induction count generalizing value text with
  | zero => rw [Nat.zero_add]; rfl
  | succ count ih =>
    rw [Nat.succ_add]
    cases text with
    | nil => rfl
    | cons b text =>
      simp only [readDigits]
      cases digit? b with
      | some d => exact ih (10 * value + d) text
      | none => rfl

/-- Written digits are read back. -/
theorem readDigits_fixed (width value n : Nat) (rest : Bytes) :
    readDigits width value (encode (Decimal.fixed width n) ++ rest) =
      .ok (value * 10 ^ width + n % 10 ^ width, rest) := by
  induction width generalizing value n rest with
  | zero => simp [Decimal.fixed, readDigits, Nat.mod_one]
  | succ width ih =>
    have hlast : n % 10 < 10 := Nat.mod_lt _ (by decide)
    rw [encode_fixed_succ, List.append_assoc, readDigits_add, ih]
    show readDigits 1 _ (digitByte (n % 10) :: rest) = _
    rw [readDigits, digit?_digitByte _ hlast]
    simp only [readDigits, Except.ok.injEq, Prod.mk.injEq, and_true]
    rw [mod_pow_succ, Nat.pow_succ]
    ring

/-- Written digits are read back from a number that they hold. -/
theorem readDigits_of_lt {width n : Nat} (h : n < 10 ^ width) (rest : Bytes) :
    readDigits width 0 (encode (Decimal.fixed width n) ++ rest) = .ok (n, rest) := by
  rw [readDigits_fixed, Nat.zero_mul, Nat.zero_add, Nat.mod_eq_of_lt h]

theorem readByte_cons {accepted : List UInt8} {b : UInt8} (h : b ∈ accepted) (rest : Bytes) :
    readByte accepted (b :: rest) = .ok rest := by
  rw [readByte, if_pos h]

/-- The bytes of an ASCII character before more text. -/
theorem encode_cons_ascii {c : Char} (h : c.toNat < 0x80) (text : List Char) (rest : Bytes) :
    encode (c :: text) ++ rest = ascii c :: (encode text ++ rest) := by
  rw [encode_cons, encodeChar_of_ascii h, List.singleton_append, List.cons_append]

/-! ## Dates -/

/-- A year from 0 to 9999 is read back. -/
theorem readDigits_writeYear {year : Int} (h : 0 ≤ year ∧ year ≤ 9999) (rest : Bytes) :
    readDigits 4 0 (encode (writeYear year) ++ rest) = .ok (year.toNat, rest) := by
  rw [writeYear, if_pos h]
  exact readDigits_of_lt (by omega) rest

/-- The text of any other year begins with a sign, which no date begins with. -/
theorem readDigits_writeYear_eq_error {year : Int} (h : ¬ (0 ≤ year ∧ year ≤ 9999))
    (rest : Bytes) : readDigits 4 0 (encode (writeYear year) ++ rest) = .error .invalid := by
  have hminus : digit? (ascii '-') = none := by decide
  have hplus : digit? (ascii '+') = none := by decide
  rw [writeYear, if_neg h]
  split
  · rw [encode_cons_ascii (by decide), readDigits, hminus]
  · rw [encode_cons_ascii (by decide), readDigits, hplus]

theorem month_day_lt {d : Date} (h : d.IsCivil) : d.month < 10 ^ 2 ∧ d.day < 10 ^ 2 := by
  obtain ⟨-, hmonth, -, hday⟩ := h
  have hdays : Date.daysInMonth d.year d.month ≤ 31 := by
    rw [Date.daysInMonth]
    split
    · split <;> omega
    · split <;> omega
  omega

/-- The bytes of a date before more text. -/
theorem encode_writeDate_append (d : Date) (rest : Bytes) :
    encode (writeDate d) ++ rest = encode (writeYear d.year) ++ ascii '-' ::
      (encode (Decimal.fixed 2 d.month) ++ ascii '-' ::
        (encode (Decimal.fixed 2 d.day) ++ rest)) := by
  have hdash : ('-').toNat < 0x80 := by decide
  simp only [writeDate, encode_append, List.append_assoc, List.cons_append, encode_cons_ascii hdash]

/-- A date of the years 0 to 9999 is read back. -/
theorem readDate_writeDate {d : Date} (hc : d.IsCivil) (hy : 0 ≤ d.year ∧ d.year ≤ 9999)
    (rest : Bytes) : readDate (encode (writeDate d) ++ rest) = .ok (d, rest) := by
  have hlt := month_day_lt hc
  have hdate : (⟨d.year.toNat, d.month, d.day⟩ : Date) = d := by
    rw [Int.toNat_of_nonneg hy.1]
  rw [encode_writeDate_append, readDate, readDigits_writeYear hy]
  simp only [bind, Except.bind, readByte_cons (List.mem_singleton_self _),
    readDigits_of_lt hlt.1, readDigits_of_lt hlt.2, hdate, if_pos hc]
  rfl

/-! ## Times of day -/

theorem digit?_zulu : digit? (ascii 'Z') = none := by decide

/-- The digits of a fraction beyond those that count are passed over. -/
theorem readFractionDigits_zero (value : Nat) (text : Bytes) :
    readFractionDigits 0 value text = (value, text.dropWhile fun b => (digit? b).isSome) := rfl

/-- The reading of a fraction goes on with every digit. -/
theorem readFractionDigits_cons (more value : Nat) (b : UInt8) (rest : Bytes) :
    readFractionDigits (more + 1) value (b :: rest) =
      match digit? b with
      | some d => readFractionDigits more (10 * value + d) rest
      | none => (value * 10 ^ (more + 1), b :: rest) := rfl

/-- Digits of a fraction that are not the last ones are read as they stand. -/
theorem readFractionDigits_fixed (width more value n : Nat) (rest : Bytes) :
    readFractionDigits (width + more) value (encode (Decimal.fixed width n) ++ rest) =
      readFractionDigits more (value * 10 ^ width + n % 10 ^ width) rest := by
  induction width generalizing more value n rest with
  | zero => simp [Decimal.fixed, Nat.mod_one]
  | succ width ih =>
    have hlast : n % 10 < 10 := Nat.mod_lt _ (by decide)
    rw [encode_fixed_succ, List.append_assoc, Nat.add_assoc, ih, Nat.add_comm 1 more]
    show readFractionDigits (more + 1) _ (digitByte (n % 10) :: rest) = _
    rw [readFractionDigits_cons, digit?_digitByte _ hlast]
    have hvalue : 10 * (value * 10 ^ width + n / 10 % 10 ^ width) + n % 10 =
        value * 10 ^ (width + 1) + n % 10 ^ (width + 1) := by
      rw [mod_pow_succ, Nat.pow_succ]
      ring
    simp only [hvalue]

/-- The digits of a fraction end at the first byte that is none and count from the front. -/
theorem readFractionDigits_end (more value : Nat) {b : UInt8} (hb : digit? b = none)
    (rest : Bytes) :
    readFractionDigits more value (b :: rest) = (value * 10 ^ more, b :: rest) := by
  cases more with
  | zero => simp [readFractionDigits_zero, hb]
  | succ more => rw [readFractionDigits_cons, hb]

/-- A fraction of some digits is read back. -/
theorem readFraction_fixed (width more : Nat) {n : Nat} (hw : width + 1 + more = 9)
    (h : n < 10 ^ (width + 1)) (rest : Bytes) :
    readFraction (encode ('.' :: Decimal.fixed (width + 1) n) ++ ascii 'Z' :: rest) =
      .ok (n * 10 ^ more, ascii 'Z' :: rest) := by
  have hpoint : ('.').toNat < 0x80 := by decide
  have hfirst : ∃ r, readDigits 1 0 (encode (Decimal.fixed (width + 1) n) ++ ascii 'Z' :: rest) =
      .ok r := by
    -- all digits can be read, so the first one can
    have hall := readDigits_fixed (width + 1) 0 n (ascii 'Z' :: rest)
    rw [Nat.add_comm width 1, readDigits_add] at hall
    cases hone : readDigits 1 0 (encode (Decimal.fixed (1 + width) n) ++ ascii 'Z' :: rest) with
    | ok r => exact ⟨r, by rw [Nat.add_comm width 1, hone]⟩
    | error e => rw [hone] at hall; cases hall
  obtain ⟨r, hr⟩ := hfirst
  rw [encode_cons_ascii hpoint, readFraction, if_neg (by decide), hr]
  show Except.ok (readFractionDigits 9 0 _) = _
  rw [← hw, readFractionDigits_fixed, readFractionDigits_end _ _ digit?_zulu, Nat.mod_eq_of_lt h, Nat.zero_mul,
    Nat.zero_add]

/-- The fraction of a second is read back. -/
theorem readFraction_writeFraction {nanos : Nat} (h : nanos < nanosPerSecond) (rest : Bytes) :
    readFraction (encode (writeFraction nanos) ++ ascii 'Z' :: rest) =
      .ok (nanos, ascii 'Z' :: rest) := by
  rw [nanosPerSecond] at h
  rw [writeFraction]
  split
  · next hzero =>
    rw [hzero, encode_nil, List.nil_append, readFraction, if_pos (by decide)]
  · split
    · next hmillis =>
      rw [readFraction_fixed 2 6 rfl (by omega)]
      congr 2
      omega
    · split
      · next hmicros =>
        rw [readFraction_fixed 5 3 rfl (by omega)]
        congr 2
        omega
      · rw [readFraction_fixed 8 0 rfl (by omega)]
        congr 2
        omega

/-- The bytes of a time of day before more text. -/
theorem encode_writeClock_append (second : Nat) (leap : Bool) (rest : Bytes) :
    encode (writeClock second leap) ++ rest = encode (Decimal.fixed 2 (second / 3600)) ++
      ascii ':' :: (encode (Decimal.fixed 2 (second / 60 % 60)) ++ ascii ':' ::
        (encode (Decimal.fixed 2 (second % 60 + if leap then 1 else 0)) ++ rest)) := by
  have hcolon : (':').toNat < 0x80 := by decide
  simp only [writeClock, encode_append, List.append_assoc, List.cons_append,
    encode_cons_ascii hcolon]

/-- The time of day is read from its parts. -/
theorem readClock_parts {hour minute second nanos : Nat} {text rest : Bytes} (hh : hour < 24)
    (hm : minute < 60) (hs : second ≤ 60) (hf : readFraction text = .ok (nanos, rest)) :
    readClock (encode (Decimal.fixed 2 hour) ++ ascii ':' ::
        (encode (Decimal.fixed 2 minute) ++ ascii ':' ::
          (encode (Decimal.fixed 2 second) ++ text))) =
      .ok ((3600 * hour + 60 * minute + min second 59,
        if second = 60 then nanosPerSecond + nanos else nanos), rest) := by
  have hh2 : hour < 10 ^ 2 := by omega
  have hm2 : minute < 10 ^ 2 := by omega
  have hs2 : second < 10 ^ 2 := by omega
  rw [readClock, readDigits_of_lt hh2]
  simp only [bind, Except.bind, readByte_cons (List.mem_singleton_self _), readDigits_of_lt hm2,
    readDigits_of_lt hs2, hf, if_pos (And.intro hh (And.intro hm hs))]
  rfl

/-- A time of day is read back; a leap second is the one after second 59. -/
theorem readClock_writeClock {second nanos : Nat} {leap : Bool} (hs : second < 86400)
    (hn : nanos < nanosPerSecond) (hleap : leap = true → second % 60 = 59) (rest : Bytes) :
    readClock (encode (writeClock second leap) ++
        (encode (writeFraction nanos) ++ ascii 'Z' :: rest)) =
      .ok ((second, if leap then nanosPerSecond + nanos else nanos), ascii 'Z' :: rest) := by
  rw [encode_writeClock_append, readClock_parts (by omega) (by omega) (by split <;> omega)
    (readFraction_writeFraction hn rest)]
  cases leap with
  | true =>
    -- a leap second is written as second 60 and read as second 59
    have h59 := hleap rfl
    have hwhole : 3600 * (second / 3600) + 60 * (second / 60 % 60) + min (second % 60 + 1) 59 =
        second := by omega
    simp only [if_true, h59] at hwhole ⊢
    rw [hwhole]
  | false =>
    have hwhole : 3600 * (second / 3600) + 60 * (second / 60 % 60) + min (second % 60 + 0) 59 =
        second := by omega
    have hless : ¬ second % 60 + 0 = 60 := by omega
    simp only [Bool.false_eq_true, if_false, hwhole, hless]

/-! ## Instants -/

/-- The text of an instant after its date. -/
def writeTime (i : Instant) : List Char :=
  writeClock (i.seconds % 86400).toNat i.isLeap ++ writeFraction (i.nanos % nanosPerSecond) ++ ['Z']

theorem write_eq (i : Instant) : write i = writeDate i.date ++ 'T' :: writeTime i := by
  simp only [write, writeTime, Instant.date, List.append_assoc, List.cons_append]

/-- The bytes of an instant. -/
theorem encode_write (i : Instant) :
    encode (write i) = encode (writeDate i.date) ++ ascii 'T' :: encode (writeTime i) := by
  rw [write_eq, encode_append, encode_cons, encodeChar_of_ascii (by decide), List.singleton_append]

/-- The bytes of an instant after its date. -/
theorem encode_writeTime (i : Instant) : encode (writeTime i) =
    encode (writeClock (i.seconds % 86400).toNat i.isLeap) ++
      (encode (writeFraction (i.nanos % nanosPerSecond)) ++ [ascii 'Z']) := by
  rw [writeTime, encode_append, encode_append, List.append_assoc]
  rfl

/-- No instant has a text shorter than the shortest timestamp. -/
theorem localLength_le_length (i : Instant) : ¬ (encode (write i)).length < localLength := by
  rw [encode_write, encode_writeTime, encode_writeDate_append, encode_writeClock_append]
  have hyear : 4 ≤ (encode (writeYear i.date.year)).length := by
    rw [writeYear]
    split
    · rw [length_encode_fixed]
    -- years of more digits, and signed ones, are longer still
    · have hwidth : 4 ≤ max 4 (Decimal.digitCount i.date.year.natAbs) := Nat.le_max_left ..
      rw [encode_cons, List.length_append, Decimal.atLeast, length_encode_fixed]
      omega
  simp only [List.length_append, List.length_cons, length_encode_fixed, localLength]
  omega

theorem isLeap_iff {i : Instant} : i.isLeap = true ↔ nanosPerSecond ≤ i.nanos := decide_eq_true_iff

/-- The leap second shows in the nanoseconds. -/
theorem nanos_eq (i : Instant) :
    (if i.isLeap then nanosPerSecond + i.nanos % nanosPerSecond
      else i.nanos % nanosPerSecond) = i.nanos := by
  have hlt : i.nanos < 2 * nanosPerSecond := i.valid.2.2.1
  simp only [isLeap_iff]
  split
  · next h =>
    -- the nanoseconds of a leap second begin at one second
    rw [Nat.mod_eq_sub_mod h, Nat.mod_eq_of_lt (by omega)]
    omega
  · next h => exact Nat.mod_eq_of_lt (by omega)

@[simp] theorem ofUnix?_self (i : Instant) : Instant.ofUnix? i.seconds i.nanos = some i :=
  dif_pos i.valid

/-- The time of day of an instant is read back from its text, whatever its year. -/
theorem readClock_writeTime (i : Instant) : readClock (encode (writeTime i)) =
    .ok (((i.seconds % 86400).toNat, i.nanos), [ascii 'Z']) := by
  have hsecond : (i.seconds % 86400).toNat < 86400 := by omega
  have hnanos : i.nanos % nanosPerSecond < nanosPerSecond := Nat.mod_lt _ (by decide)
  have hleap : i.isLeap = true → (i.seconds % 86400).toNat % 60 = 59 := by
    intro hl
    have := i.valid.2.2.2 (isLeap_iff.mp hl)
    omega
  rw [encode_writeTime, readClock_writeClock hsecond hnanos hleap [], nanos_eq]

/-- **An instant of the years 0 to 9999 is read back from its text.** -/
theorem read_write {i : Instant} (h : 0 ≤ i.year ∧ i.year ≤ 9999) :
    read (encode (write i)) = .ok i := by
  -- the offset of the text is zero
  have hseconds : (86400 * i.date.dayNumber + ((i.seconds % 86400).toNat : Int) - 60 * 0) =
      i.seconds := by
    rw [Instant.date, Date.dayNumber_ofDayNumber]
    omega
  have hcivil : i.date.IsCivil := Date.isCivil_ofDayNumber _
  have hT : ascii 'T' ∈ [ascii 'T', ascii 't', ascii ' '] := List.mem_cons_self
  have hoffset : readOffset [ascii 'Z'] = .ok (0, []) := rfl
  rw [read, if_neg (localLength_le_length i), encode_write]
  simp only [readDate_writeDate hcivil h, bind, Except.bind, readByte_cons hT, readClock_writeTime,
    hoffset, hseconds, ofUnix?_self]
  rfl

/-- **The text of an instant outside the years 0 to 9999 is refused.** -/
theorem read_write_eq_error {i : Instant} (h : ¬ (0 ≤ i.year ∧ i.year ≤ 9999)) :
    read (encode (write i)) = .error .invalid := by
  rw [Instant.year] at h
  rw [read, if_neg (localLength_le_length i), encode_write, encode_writeDate_append, readDate,
    readDigits_writeYear_eq_error h]
  rfl

end Timestamp

/-! ## Payloads -/

namespace Expiration

/-- The expirations whose payload can be read: all but those of instants outside the years 0 to
9999. -/
def IsReadable : Expiration → Prop
  | .never => True
  | .at i => 0 ≤ i.year ∧ i.year ≤ 9999

/-- The expirations that never come, or come in the year 0 or later. -/
def IsOfEra : Expiration → Prop
  | .never => True
  | .at i => 0 ≤ i.year

theorem ofString_encode_at (i : Instant) :
    Bytes.ofString (encode (.at i)) = Utf8.encode (Timestamp.write i) := by
  rw [encode, Bytes.ofString, String.toList_ofList]

/-- The payload that is a text is judged by reading it, unless it is too short to be one. -/
theorem decode_encode_text {text : List Char}
    (h : ¬ (Utf8.encode text).length < Timestamp.localLength) :
    decode (Utf8.encode text) =
      match Timestamp.read (Utf8.encode text) with
      | .error reason => .error (.timestamp reason)
      | .ok instant => .ok (.at instant) := by
  have hne : (Utf8.encode text).isEmpty = false := by
    rw [List.isEmpty_eq_false_iff]
    intro hnil
    rw [hnil] at h
    exact h (by decide)
  rw [decode, hne, Utf8.decode_encode]
  rfl

/-- The payload of an instant is judged by reading its text. -/
theorem decode_encode_at (i : Instant) :
    decode (Bytes.ofString (encode (.at i))) =
      match Timestamp.read (Utf8.encode (Timestamp.write i)) with
      | .error reason => .error (.timestamp reason)
      | .ok instant => .ok (.at instant) := by
  rw [ofString_encode_at, decode_encode_text (Timestamp.localLength_le_length i)]

/-- **A readable expiration is read back from its payload.** -/
theorem decode_encode {e : Expiration} (h : e.IsReadable) :
    decode (Bytes.ofString e.encode) = .ok e := by
  cases e with
  | never => rfl
  | «at» i => rw [decode_encode_at, Timestamp.read_write h]

/-- **The payload of any other expiration is refused.** -/
theorem decode_encode_eq_error {e : Expiration} (h : ¬ e.IsReadable) :
    decode (Bytes.ofString e.encode) = .error (.timestamp .invalid) := by
  cases e with
  | never => exact absurd trivial h
  | «at» i => rw [decode_encode_at, Timestamp.read_write_eq_error h]

/-- An expiration that counts at an instant counts at every earlier one. -/
theorem isActiveAt_of_le {e : Expiration} {now later : Instant} (hle : now ≤ later)
    (h : e.isActiveAt later = true) : e.isActiveAt now = true := by
  cases e with
  | never => rfl
  | «at» i =>
    rw [isActiveAt, decide_eq_true_eq] at h ⊢
    exact Instant.lt_of_le_of_lt hle h

end Expiration

end ObjectStore
