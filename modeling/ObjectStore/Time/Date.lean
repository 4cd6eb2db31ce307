/-! # Civil dates and day numbers

Days are numbered from 1970-01-01 in the proleptic Gregorian calendar, which has a year zero.

* **`Date`** — a year, a month and a day of the month, not necessarily one that exists.
* **`Date.IsCivil`** — the date exists in the calendar.
* **`Date.dayNumber`** — the number of a date.
* **`Date.ofDayNumber`** — the date with a given number; `dayNumber_ofDayNumber` says that it has it.

Both directions count in years that begin on the first of March, so that a leap day comes last in its
year, its four years, its century and its four centuries. -/

namespace ObjectStore

/-- A year, a month and a day. -/
structure Date where
  year : Int
  month : Nat
  day : Nat
  deriving DecidableEq, Repr

namespace Date

/-- Whether a year has a 29th of February. -/
def isLeapYear (year : Int) : Bool := year % 4 == 0 && (year % 100 != 0 || year % 400 == 0)

/-- The number of days of a month. -/
def daysInMonth (year : Int) (month : Nat) : Nat :=
  if month = 2 then (if isLeapYear year then 29 else 28)
  else if month = 4 ∨ month = 6 ∨ month = 9 ∨ month = 11 then 30
  else 31

/-- The date exists in the calendar. -/
def IsCivil (d : Date) : Prop :=
  1 ≤ d.month ∧ d.month ≤ 12 ∧ 1 ≤ d.day ∧ d.day ≤ daysInMonth d.year d.month

instance (d : Date) : Decidable d.IsCivil := by unfold IsCivil; infer_instance

/-- The days from 0000-03-01 to 1970-01-01. -/
def epochDay : Int := 719468

/-! ## Years from March on -/

/-- The days from 0000-03-01 to the first of March of a year. -/
def daysBefore (year : Int) : Int := 365 * year + year / 4 - year / 100 + year / 400

/-- The year from March on that a day lies in, counted from 0000-03-01, and the day of that year.
Four centuries have 146097 days, one has 36524, four years have 1461 and one has 365; the last century
of four and the last year of four may be a day longer. -/
def yearAndDay (day : Int) : Int × Nat :=
  let dayOfEra := day % 146097
  let century := min (dayOfEra / 36524) 3
  let dayOfCentury := dayOfEra - 36524 * century
  let dayOfFour := dayOfCentury % 1461
  let year := min (dayOfFour / 365) 3
  (400 * (day / 146097) + 100 * century + 4 * (dayOfCentury / 1461) + year,
    (dayOfFour - 365 * year).toNat)

/-- The day of a year from March on with which a month begins, where March is month 0. -/
def daysBeforeMonth (month : Nat) : Nat := (153 * month + 2) / 5

/-- The date of a day of a year from March on. -/
def ofYearAndDay (year : Int) (day : Nat) : Date :=
  let month := (5 * day + 2) / 153
  let dayOfMonth := day - daysBeforeMonth month + 1
  if month < 10 then ⟨year, month + 3, dayOfMonth⟩ else ⟨year + 1, month - 9, dayOfMonth⟩

theorem yearAndDay_le (day : Int) : (yearAndDay day).2 ≤ 365 := by
  simp only [yearAndDay]
  omega

/-- The days before a year and the day of that year make up the day. -/
theorem daysBefore_yearAndDay (day : Int) :
    daysBefore (yearAndDay day).1 + (yearAndDay day).2 = day := by
  simp only [yearAndDay, daysBefore]
  generalize hDay : day % 146097 = dayOfEra
  generalize hEra : day / 146097 = era
  generalize hCentury : min (dayOfEra / 36524) 3 = century
  generalize hDayOfCentury : dayOfEra - 36524 * century = dayOfCentury
  generalize hDayOfFour : dayOfCentury % 1461 = dayOfFour
  generalize hFour : dayOfCentury / 1461 = four
  generalize hYear : min (dayOfFour / 365) 3 = year
  have hCenturyBound : 0 ≤ century ∧ century ≤ 3 ∧ 0 ≤ dayOfCentury ∧ dayOfCentury ≤ 36524 := by
    omega
  have hFourBound : 0 ≤ four ∧ four ≤ 24 ∧ 0 ≤ dayOfFour ∧ dayOfFour ≤ 1460 := by omega
  have hYearBound : 0 ≤ year ∧ year ≤ 3 := by omega
  have hFours : (400 * era + 100 * century + 4 * four + year) / 4 =
      100 * era + 25 * century + four := by omega
  have hCenturies : (400 * era + 100 * century + 4 * four + year) / 100 = 4 * era + century := by
    omega
  have hEras : (400 * era + 100 * century + 4 * four + year) / 400 = era := by omega
  rw [hFours, hCenturies, hEras]
  omega

/-! ## Day numbers -/

/-- The number of a date, counted from 1970-01-01. January and February belong to the year before. -/
def dayNumber (d : Date) : Int :=
  let day : Int := d.day - 1 - epochDay
  if d.month ≤ 2 then daysBefore (d.year - 1) + daysBeforeMonth (d.month + 9) + day
  else daysBefore d.year + daysBeforeMonth (d.month - 3) + day

/-- The date with a given number. -/
def ofDayNumber (number : Int) : Date :=
  let (year, day) := yearAndDay (number + epochDay)
  ofYearAndDay year day

theorem dayNumber_ofYearAndDay (year : Int) {day : Nat} (h : day ≤ 365) :
    dayNumber (ofYearAndDay year day) = daysBefore year + day - epochDay := by
  simp only [ofYearAndDay]
  generalize hMonth : (5 * day + 2) / 153 = month
  have hBegun : daysBeforeMonth month ≤ day := by simp only [daysBeforeMonth]; omega
  split
  · have hLate : ¬ month + 3 ≤ 2 := by omega
    simp only [dayNumber, hLate, if_false, Nat.add_sub_cancel]
    omega
  · have hEarly : month - 9 ≤ 2 := by omega
    have hBack : month - 9 + 9 = month := by omega
    simp only [dayNumber, hEarly, if_true, hBack, Int.add_sub_cancel]
    omega

/-- Numbering the date of a number gives the number back. -/
theorem dayNumber_ofDayNumber (number : Int) : dayNumber (ofDayNumber number) = number := by
  simp only [ofDayNumber]
  rw [dayNumber_ofYearAndDay _ (yearAndDay_le _), daysBefore_yearAndDay]
  omega

end Date

end ObjectStore
