import ObjectStore.Proofs.TimestampText

/-! # What a timestamp says

A timestamp spells a date, a time of day and an offset from UTC, and the offset is taken off at the
very end of reading it.

* **`Timestamp.Spelled`** — the date, the time of day and the offset that a text spells.
* **`Timestamp.readSpelled`** — the first part of `Timestamp.read`; `Timestamp.read_eq` says so.
* **`Timestamp.readSpelled_isValid`** — what a text spells exists: its date lies in the calendar and
  in the years 0 to 9999, its time of day in the day and its offset within a day.
* **`Timestamp.Spelled.exists_instant?_eq`** — what a text spells is an instant, whatever the
  offset; so only the parts of a text can be out of range. -/

namespace ObjectStore

/-- The steps of a computation that succeeds succeed. -/
theorem Except.exists_of_bind_eq_ok {ε α β : Type} {x : Except ε α} {f : α → Except ε β} {b : β}
    (h : (x >>= f) = .ok b) : ∃ a, x = .ok a ∧ f a = .ok b := by
  cases x with
  | error e => cases h
  | ok a => exact ⟨a, rfl, h⟩

namespace Timestamp

/-- What a timestamp spells: a date, a second of the day, the nanoseconds into that second, which
are 10⁹ more in a leap second, and an offset from UTC in minutes. -/
structure Spelled where
  date : Date
  second : Nat
  nanos : Nat
  offset : Int
  deriving DecidableEq, Repr

namespace Spelled

/-- The Unix second on the UTC scale. -/
def seconds (s : Spelled) : Int := 86400 * s.date.dayNumber + s.second - 60 * s.offset

/-- The instant, if there is one. -/
def instant? (s : Spelled) : Option Instant := Instant.ofUnix? s.seconds s.nanos

/-- The date on the UTC scale. -/
def utcDate (s : Spelled) : Date := Date.ofDayNumber (s.seconds / 86400)

/-- The date, the time of day and the offset exist. -/
structure IsValid (s : Spelled) : Prop where
  civil : s.date.IsCivil
  year : 0 ≤ s.date.year ∧ s.date.year ≤ 9999
  second : s.second < 86400
  nanos : s.nanos < 2 * nanosPerSecond
  leap : nanosPerSecond ≤ s.nanos → s.second % 60 = 59
  offset : s.offset.natAbs < 24 * 60

/-- The offset carries the date out of the years 0 to 9999. -/
structure IsCarriedOut (s : Spelled) : Prop where
  shifted : s.offset ≠ 0
  year : 0 ≤ s.date.year ∧ s.date.year ≤ 9999
  utcYear : ¬ (0 ≤ s.utcDate.year ∧ s.utcDate.year ≤ 9999)

end Spelled

/-- What a text spells. -/
def readSpelled (text : Bytes) : Except Malformed Spelled := do
  if text.length < localLength then throw .tooShort
  let (date, text) ← readDate text
  let text ← readByte [ascii 'T', ascii 't', ascii ' '] text
  let ((second, nanos), text) ← readClock text
  let (offset, text) ← readOffset text
  if text ≠ [] then throw .tooLong
  if offset.natAbs ≥ 24 * 60 then throw .outOfRange
  return ⟨date, second, nanos, offset⟩

/-- **A text is read by taking the offset off what it spells.** -/
theorem read_eq (text : Bytes) : read text = readSpelled text >>= fun s =>
    match s.instant? with
    | some i => .ok i
    | none => .error .outOfRange := by
  rw [read, readSpelled]
  split
  · rfl
  cases readDate text with
  | error e => rfl
  | ok date =>
  cases hmark : readByte [ascii 'T', ascii 't', ascii ' '] date.2 with
  | error e => simp only [bind, Except.bind, hmark]
  | ok afterMark =>
  cases hclock : readClock afterMark with
  | error e => simp only [bind, Except.bind, hmark, hclock]
  | ok clock =>
  cases hoffset : readOffset clock.2 with
  | error e => simp only [bind, Except.bind, hmark, hclock, hoffset]
  | ok offset =>
    simp only [bind, Except.bind, hmark, hclock, hoffset]
    split
    · rfl
    split
    · rfl
    rfl

/-! ## What the parts of a text spell exists -/

theorem digit?_lt {b : UInt8} {d : Nat} (h : digit? b = some d) : d < 10 := by
  rw [digit?] at h
  split at h
  · next hrange =>
    have hle : b.toNat ≤ 57 := UInt8.le_iff_toNat_le.mp hrange.2
    cases h
    omega
  · cases h

/-- One more digit makes a number of one more digit. -/
theorem appendDigit_le {d : Nat} (h : d < 10) (value count : Nat) :
    (10 * value + d + 1) * 10 ^ count ≤ (value + 1) * 10 ^ (count + 1) := by
  calc (10 * value + d + 1) * 10 ^ count
      ≤ (10 * (value + 1)) * 10 ^ count := Nat.mul_le_mul_right _ (by omega)
    _ = (value + 1) * 10 ^ (count + 1) := by rw [Nat.pow_succ]; ring

/-- Read digits make up a number of no more digits. -/
theorem readDigits_lt {count value n : Nat} {text rest : Bytes}
    (h : readDigits count value text = .ok (n, rest)) : n < (value + 1) * 10 ^ count := by
  induction count generalizing value text with
  | zero =>
    cases h
    omega
  | succ count ih =>
    cases text with
    | nil => cases h
    | cons b text =>
      rw [readDigits] at h
      cases hd : digit? b with
      | none => rw [hd] at h; cases h
      | some d =>
        rw [hd] at h
        exact Nat.lt_of_lt_of_le (ih h) (appendDigit_le (digit?_lt hd) value count)

/-- A date that is read lies in the calendar and in the years 0 to 9999. -/
theorem readDate_isCivil {text rest : Bytes} {d : Date} (h : readDate text = .ok (d, rest)) :
    d.IsCivil ∧ 0 ≤ d.year ∧ d.year ≤ 9999 := by
  obtain ⟨⟨year, text⟩, hyear, h⟩ := Except.exists_of_bind_eq_ok h
  obtain ⟨text, -, h⟩ := Except.exists_of_bind_eq_ok h
  obtain ⟨⟨month, text⟩, -, h⟩ := Except.exists_of_bind_eq_ok h
  obtain ⟨text, -, h⟩ := Except.exists_of_bind_eq_ok h
  obtain ⟨⟨day, text⟩, -, h⟩ := Except.exists_of_bind_eq_ok h
  have hlt := readDigits_lt hyear
  simp only at h
  split at h
  · next hcivil =>
    cases h
    refine ⟨hcivil, ?_⟩
    simp only
    omega
  · cases h

/-- The digits of a fraction make up a number of no more digits. -/
theorem readFractionDigits_lt (count value : Nat) (text : Bytes) :
    (readFractionDigits count value text).1 < (value + 1) * 10 ^ count := by
  have hends : ∀ value count, value * 10 ^ count < (value + 1) * 10 ^ count := fun value count =>
    Nat.mul_lt_mul_of_pos_right (Nat.lt_succ_self value) (Nat.pow_pos (by decide))
  induction count generalizing value text with
  | zero =>
    show value < (value + 1) * 10 ^ 0
    omega
  | succ count ih =>
    cases text with
    | nil => exact hends value (count + 1)
    | cons b text =>
      rw [readFractionDigits_cons]
      cases hd : digit? b with
      | none => exact hends value (count + 1)
      | some d => exact Nat.lt_of_lt_of_le (ih _ text) (appendDigit_le (digit?_lt hd) value count)

theorem readFraction_lt {text rest : Bytes} {nanos : Nat}
    (h : readFraction text = .ok (nanos, rest)) : nanos < nanosPerSecond := by
  rw [nanosPerSecond]
  cases text with
  | nil =>
    cases h
    omega
  | cons b text =>
    rw [readFraction] at h
    split at h
    · cases h
      omega
    · obtain ⟨-, -, h⟩ := Except.exists_of_bind_eq_ok h
      have hread : readFractionDigits 9 0 text = (nanos, rest) := Except.ok.inj h
      have hlt := readFractionDigits_lt 9 0 text
      rw [hread] at hlt
      omega

/-- A time of day that is read lies in the day, and in a leap second only at the end of a
minute. -/
theorem readClock_lt {text rest : Bytes} {second nanos : Nat}
    (h : readClock text = .ok ((second, nanos), rest)) :
    second < 86400 ∧ nanos < 2 * nanosPerSecond ∧ (nanosPerSecond ≤ nanos → second % 60 = 59) := by
  obtain ⟨⟨hour, text⟩, -, h⟩ := Except.exists_of_bind_eq_ok h
  obtain ⟨text, -, h⟩ := Except.exists_of_bind_eq_ok h
  obtain ⟨⟨minute, text⟩, -, h⟩ := Except.exists_of_bind_eq_ok h
  obtain ⟨text, -, h⟩ := Except.exists_of_bind_eq_ok h
  obtain ⟨⟨whole, text⟩, -, h⟩ := Except.exists_of_bind_eq_ok h
  obtain ⟨⟨fraction, text⟩, hfraction, h⟩ := Except.exists_of_bind_eq_ok h
  have hlt := readFraction_lt hfraction
  simp only at h
  split at h
  · cases h
    split <;> omega
  · cases h

/-- **What a text spells exists.** -/
theorem readSpelled_isValid {text : Bytes} {s : Spelled} (h : readSpelled text = .ok s) :
    s.IsValid := by
  rw [readSpelled] at h
  split at h
  · cases h
  obtain ⟨⟨date, afterDate⟩, hdate, h⟩ := Except.exists_of_bind_eq_ok h
  obtain ⟨afterMark, -, h⟩ := Except.exists_of_bind_eq_ok h
  obtain ⟨⟨⟨second, nanos⟩, afterClock⟩, hclock, h⟩ := Except.exists_of_bind_eq_ok h
  obtain ⟨⟨offset, afterOffset⟩, -, h⟩ := Except.exists_of_bind_eq_ok h
  obtain ⟨hcivil, hyear⟩ := readDate_isCivil hdate
  obtain ⟨hsecond, hnanos, hleap⟩ := readClock_lt hclock
  simp only at h
  split at h
  · cases h
  split at h
  · cases h
  · next hoffset =>
    cases h
    exact ⟨hcivil, hyear, hsecond, hnanos, hleap, Nat.lt_of_not_le hoffset⟩

/-! ## What a text spells is an instant -/

/-- The days of the years 0 to 9999 lie well within the range of instants. -/
theorem dayNumber_bounds {d : Date} (hc : d.IsCivil) (hy : 0 ≤ d.year ∧ d.year ≤ 9999) :
    -1000000 ≤ d.dayNumber ∧ d.dayNumber ≤ 3000000 := by
  have hmonth := hc.2.1
  have hday := (month_day_lt hc).2
  simp only [Date.dayNumber, Date.daysBefore, Date.daysBeforeMonth, Date.epochDay]
  split <;> omega

namespace Spelled

variable {s : Spelled}

/-- **What a text spells is an instant**, whatever the offset. -/
theorem IsValid.exists_instant?_eq (h : s.IsValid) :
    ∃ i, s.instant? = some i ∧ i.seconds = s.seconds ∧ i.nanos = s.nanos := by
  have hdays := dayNumber_bounds h.civil h.year
  have hsecond := h.second
  have hoffset := h.offset
  have hvalid : Instant.IsValid s.seconds s.nanos := by
    refine ⟨?_, ?_, h.nanos, fun hle => ?_⟩
    · rw [Instant.firstSecond, seconds]
      omega
    · rw [Instant.lastSecond, seconds]
      omega
    -- an offset of whole minutes keeps the second of the minute
    · have hleap := h.leap hle
      rw [seconds]
      omega
  exact ⟨⟨s.seconds, s.nanos, hvalid⟩, dif_pos hvalid, rfl, rfl⟩

/-- A time spelled on the UTC scale keeps its date. -/
theorem IsValid.utcDate_eq (h : s.IsValid) (hoffset : s.offset = 0) : s.utcDate = s.date := by
  have hsecond := h.second
  have hdays : s.seconds / 86400 = s.date.dayNumber := by
    rw [seconds, hoffset]
    omega
  rw [utcDate, hdays, Date.ofDayNumber_dayNumber h.civil]

/-- What a text spells lies in the years 0 to 9999 unless the offset carries it out of them. -/
theorem IsValid.utcYear_iff (h : s.IsValid) :
    (0 ≤ s.utcDate.year ∧ s.utcDate.year ≤ 9999) ↔ ¬ s.IsCarriedOut := by
  refine ⟨fun hin hout => hout.utcYear hin, fun hnot => ?_⟩
  by_contra hout
  refine hnot ⟨fun hoffset => ?_, h.year, hout⟩
  rw [h.utcDate_eq hoffset] at hout
  exact hout h.year

end Spelled

/-- **The instant of a text**: what it spells, with the offset taken off. -/
theorem exists_of_read {text : Bytes} {i : Instant} (h : read text = .ok i) :
    ∃ s, readSpelled text = .ok s ∧ s.IsValid ∧ i.seconds = s.seconds ∧ i.nanos = s.nanos := by
  rw [read_eq] at h
  obtain ⟨s, hs, h⟩ := Except.exists_of_bind_eq_ok h
  have hvalid := readSpelled_isValid hs
  obtain ⟨i', hi, hseconds, hnanos⟩ := hvalid.exists_instant?_eq
  rw [hi] at h
  cases h
  exact ⟨s, hs, hvalid, hseconds, hnanos⟩

end Timestamp

end ObjectStore
