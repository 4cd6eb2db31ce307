import Mathlib.Data.List.Basic
import ObjectStore.Proofs.TimestampParts

/-! # Payloads and expirations

* **`Timestamp.write_injective`** — no two instants have the same text, those outside the years 0 to
  9999 included.
* **`Expiration.IsCarriedOut`** — the offset that a payload is written in carries its instant out of
  the years 0 to 9999.
* **`Expiration.round_trip`** — an expiration is read back from its payload exactly if it is
  readable, no two have the same payload, and what is read from any payload is written in a form
  that can be read again unless the offset carried it out of the years 0 to 9999. -/

namespace ObjectStore

namespace Timestamp

open Utf8

/-! ## Numbers -/

/-- Some digits hold one number only. -/
theorem fixed_inj {width m n : Nat} (hm : m < 10 ^ width) (hn : n < 10 ^ width)
    (h : Decimal.fixed width m = Decimal.fixed width n) : m = n := by
  have hread := readDigits_of_lt hm []
  rw [h, readDigits_of_lt hn] at hread
  cases hread
  rfl

theorem lt_pow_digitCount (n : Nat) : n < 10 ^ Decimal.digitCount n := by
  induction n using Decimal.digitCount.induct with
  | case1 n h =>
    rw [Decimal.digitCount, if_pos h]
    exact h
  | case2 n h ih =>
    rw [Decimal.digitCount, if_neg h, Nat.pow_succ]
    omega

/-- As many digits as a number needs hold that number only. -/
theorem atLeast_inj {width m n : Nat} (h : Decimal.atLeast width m = Decimal.atLeast width n) :
    m = n := by
  have hlength := congrArg List.length h
  simp only [Decimal.atLeast, Decimal.length_fixed] at hlength
  have hlt : ∀ k, k < 10 ^ max width (Decimal.digitCount k) := fun k =>
    Nat.lt_of_lt_of_le (lt_pow_digitCount k) (Nat.pow_le_pow_right (by decide) (Nat.le_max_right ..))
  have hm := hlt m
  rw [Decimal.atLeast, Decimal.atLeast, hlength] at h
  rw [hlength] at hm
  exact fixed_inj hm (hlt n) h

/-! ## Dates and times of day -/

/-- A year is told by its text: the sign tells the years outside 0 to 9999 from the others and from
one another. -/
theorem writeYear_injective : Function.Injective writeYear := by
  intro y z h
  have hread : readDigits 4 0 (encode (writeYear y) ++ []) =
      readDigits 4 0 (encode (writeYear z) ++ []) := by rw [h]
  by_cases hy : 0 ≤ y ∧ y ≤ 9999 <;> by_cases hz : 0 ≤ z ∧ z ≤ 9999
  · rw [readDigits_writeYear hy, readDigits_writeYear hz] at hread
    have hnat : y.toNat = z.toNat := (Prod.mk.inj (Except.ok.inj hread)).1
    omega
  · rw [readDigits_writeYear hy, readDigits_writeYear_eq_error hz] at hread
    cases hread
  · rw [readDigits_writeYear_eq_error hy, readDigits_writeYear hz] at hread
    cases hread
  -- outside 0 to 9999 the signs agree, and then the digits
  · rw [writeYear, writeYear, if_neg hy, if_neg hz] at h
    obtain ⟨hsign, hdigits⟩ := List.cons.inj h
    have habs := atLeast_inj hdigits
    split at hsign <;> split at hsign
    · omega
    · cases hsign
    · cases hsign
    · omega

/-- A date is told by its text. -/
theorem writeDate_inj {d e : Date} (hd : d.IsCivil) (he : e.IsCivil)
    (h : writeDate d = writeDate e) : d = e := by
  obtain ⟨hmonth, hday⟩ := month_day_lt hd
  obtain ⟨hmonth', hday'⟩ := month_day_lt he
  rw [writeDate, writeDate] at h
  obtain ⟨hfront, hdays⟩ := List.append_inj' h (by simp)
  obtain ⟨hyears, hmonths⟩ := List.append_inj' hfront (by simp)
  have hday := fixed_inj hday hday' (List.cons.inj hdays).2
  have hmonth := fixed_inj hmonth hmonth' (List.cons.inj hmonths).2
  have hyear := writeYear_injective hyears
  cases d
  cases e
  simp only at hday hmonth hyear
  rw [hday, hmonth, hyear]

/-- The mark between date and time of day is no digit. -/
theorem notMem_fixed (width n : Nat) : 'T' ∉ Decimal.fixed width n := by
  intro h
  have hdigit := (toNat_of_mem_fixed h).2
  exact absurd hdigit (by decide)

/-- The mark between date and time of day stands in no date. -/
theorem notMem_writeDate (d : Date) : 'T' ∉ writeDate d := by
  have hyear : 'T' ∉ writeYear d.year := by
    rw [writeYear]
    split
    · exact notMem_fixed 4 _
    · intro h
      rcases List.mem_cons.mp h with hsign | h
      · split at hsign <;> cases hsign
      · exact notMem_fixed _ _ h
  simp [writeDate, notMem_fixed, hyear]

/-- The mark between date and time of day stands in no time of day. -/
theorem notMem_writeTime (i : Instant) : 'T' ∉ writeTime i := by
  have hfraction : ∀ nanos, 'T' ∉ writeFraction nanos := fun nanos => by
    rw [writeFraction]
    split_ifs <;> simp [notMem_fixed]
  simp [writeTime, writeClock, notMem_fixed, hfraction]

/-- **No two instants have the same text.** -/
theorem write_injective : Function.Injective write := by
  intro i j h
  rw [write_eq, write_eq] at h
  obtain ⟨hdate, -, htime⟩ := (List.append_cons_inj_of_notMem (notMem_writeDate i.date)
    (notMem_writeTime i)).mp h
  have hdays : i.seconds / 86400 = j.seconds / 86400 := by
    have hsame := writeDate_inj (Date.isCivil_ofDayNumber _) (Date.isCivil_ofDayNumber _) hdate
    have hnumber := congrArg Date.dayNumber hsame
    rw [Date.dayNumber_ofDayNumber, Date.dayNumber_ofDayNumber] at hnumber
    exact hnumber
  have hclock := readClock_writeTime i
  rw [htime, readClock_writeTime] at hclock
  obtain ⟨hsecond, hnanos⟩ := Prod.mk.inj (Prod.mk.inj (Except.ok.inj hclock)).1
  exact Instant.ext (by omega) hnanos.symm

end Timestamp

namespace Expiration

/-! ## Payloads -/

/-- **No two expirations have the same payload.** -/
theorem encode_injective : Function.Injective encode := by
  have hne : ∀ i, encode (.at i) ≠ "" := fun i h => by
    have hnil : Timestamp.write i = [] := String.ofList_injective (h.trans String.ofList_nil.symm)
    rw [Timestamp.write_eq] at hnil
    exact List.append_ne_nil_of_right_ne_nil _ (List.cons_ne_nil _ _) hnil
  intro e f h
  cases e with
  | never =>
    cases f with
    | never => rfl
    | «at» j => exact absurd h.symm (hne j)
  | «at» i =>
    cases f with
    | never => exact absurd h (hne i)
    | «at» j => rw [Timestamp.write_injective (String.ofList_injective h)]

/-- The offset that a payload is written in carries its instant out of the years 0 to 9999. -/
def IsCarriedOut (payload : Bytes) : Prop :=
  ∃ s, Timestamp.readSpelled payload = .ok s ∧ s.IsCarriedOut

/-- Only the empty payload never expires; any other payload with an expiration is a text of its
instant in some offset. -/
theorem eq_or_read_of_decode {payload : Bytes} {e : Expiration} (h : decode payload = .ok e) :
    (payload = [] ∧ e = .never) ∨ ∃ i, Timestamp.read payload = .ok i ∧ e = .at i := by
  rw [decode] at h
  split at h
  · next hempty =>
    cases h
    exact .inl ⟨List.isEmpty_iff.mp hempty, rfl⟩
  split at h
  · cases h
  split at h
  · cases h
  · next i hread =>
    cases h
    exact .inr ⟨i, hread, rfl⟩

/-- The empty payload has no offset. -/
theorem not_isCarriedOut_nil : ¬ IsCarriedOut [] := by
  rintro ⟨s, hs, -⟩
  cases hs

/-- What is read from a payload is readable unless the offset carried it out of the years 0 to
9999. -/
theorem isReadable_iff_of_decode {payload : Bytes} {e : Expiration} (h : decode payload = .ok e) :
    e.IsReadable ↔ ¬ IsCarriedOut payload := by
  rcases eq_or_read_of_decode h with ⟨rfl, rfl⟩ | ⟨i, hread, rfl⟩
  · exact iff_of_true trivial not_isCarriedOut_nil
  · obtain ⟨s, hs, hvalid, hseconds, -⟩ := Timestamp.exists_of_read hread
    have hspelled : IsCarriedOut payload ↔ s.IsCarriedOut := by
      constructor
      · rintro ⟨s', hs', hout⟩
        rw [hs] at hs'
        cases hs'
        exact hout
      · exact fun hout => ⟨s, hs, hout⟩
    have hyear : i.year = s.utcDate.year := by
      rw [Instant.year, Instant.date, hseconds, Timestamp.Spelled.utcDate]
    rw [IsReadable, hyear, hvalid.utcYear_iff, hspelled]

/-- The last second of year 9999 west of Greenwich lies in year 10000 on the UTC scale. -/
example : IsCarriedOut (Bytes.ofString "9999-12-31T23:59:59-00:01") :=
  ⟨⟨⟨9999, 12, 31⟩, 86399, 0, -1⟩, by decide, by decide, by decide, by decide⟩

/-- **Payloads and expirations.** An expiration is read back from its payload exactly if it never
comes or comes in the years 0 to 9999, and the payload of any other one is refused as no timestamp.
No two expirations have the same payload. What is read from any payload, in whatever form, is read
back from the payload that is written for it, unless the offset carried it out of the years 0 to
9999, when that payload is refused as no timestamp. -/
theorem round_trip :
    (∀ e : Expiration, decode (Bytes.ofString e.encode) = .ok e ↔ e.IsReadable) ∧
    (∀ e : Expiration, ¬ e.IsReadable →
      ∃ reason, decode (Bytes.ofString e.encode) = .error (.timestamp reason)) ∧
    Function.Injective encode ∧
    ∀ (payload : Bytes) (e : Expiration), decode payload = .ok e →
      (¬ IsCarriedOut payload → decode (Bytes.ofString e.encode) = .ok e) ∧
      (IsCarriedOut payload →
        ∃ reason, decode (Bytes.ofString e.encode) = .error (.timestamp reason)) := by
  have hrefused : ∀ e : Expiration, ¬ e.IsReadable →
      ∃ reason, decode (Bytes.ofString e.encode) = .error (.timestamp reason) :=
    fun e h => ⟨_, decode_encode_eq_error h⟩
  refine ⟨fun e => ⟨fun hread => ?_, decode_encode⟩, hrefused, encode_injective,
    fun payload e h => ⟨fun hin => ?_, fun hout => ?_⟩⟩
  · by_contra hnot
    rw [decode_encode_eq_error hnot] at hread
    cases hread
  · exact decode_encode ((isReadable_iff_of_decode h).mpr hin)
  · exact hrefused e fun hread => (isReadable_iff_of_decode h).mp hread hout

end Expiration

end ObjectStore
