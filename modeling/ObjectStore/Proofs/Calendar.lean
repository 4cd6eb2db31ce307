import Mathlib.Tactic.IntervalCases
import ObjectStore.Time.Instant

/-! # The calendar

* **`Date.isCivil_ofDayNumber`** — the date of a day number exists in the calendar.
* **`Date.year_ofDayNumber_mono`** — later days lie in later years, or in the same one.
* **`Date.ofDayNumber_dayNumber`** — a date that exists is the date of its number.
* **`Date.dayNumber_eq_countedDays`** — its number is what counting the days one month after another
  comes to.
* **`Instant.year`** — the year of an instant on the UTC scale; `Instant.lt_of_year_lt` orders
  instants by it. -/

namespace ObjectStore

namespace Date

/-! ## Dates that exist -/

/-- A year from March on has a 366th day only if the next February is a long one. -/
theorem isLeapYear_of_last_day {day : Int} (h : (yearAndDay day).2 = 365) :
    isLeapYear ((yearAndDay day).1 + 1) = true := by
  simp only [yearAndDay] at h ⊢
  generalize hDay : day % 146097 = dayOfEra at *
  generalize day / 146097 = era
  generalize hCentury : min (dayOfEra / 36524) 3 = century at *
  generalize hDayOfCentury : dayOfEra - 36524 * century = dayOfCentury at *
  -- the last day is the last one of a fourth year
  have hYear : min (dayOfCentury % 1461 / 365) 3 = 3 := by omega
  have hDayOfFour : dayOfCentury % 1461 = 1460 := by omega
  generalize hFour : dayOfCentury / 1461 = four
  have hFourBound : 0 ≤ four ∧ four ≤ 24 := by omega
  have hLast : four = 24 → century = 3 := by omega
  rw [hYear]
  simp only [isLeapYear, Bool.and_eq_true, Bool.or_eq_true, beq_iff_eq, bne_iff_ne]
  refine ⟨by omega, ?_⟩
  -- the last four years of a century end in a long one only in the last century of four
  by_cases hEnd : four = 24
  · have hEra : 400 * era + 100 * century + 4 * four + 3 + 1 = 400 * (era + 1) := by omega
    exact .inr (by omega)
  · exact .inl (by omega)

/-- The date of a day of a year from March on exists, unless the day is the one that only long years
have. -/
theorem isCivil_ofYearAndDay {year : Int} {day : Nat} (h : day ≤ 365)
    (hleap : day = 365 → isLeapYear (year + 1) = true) : (ofYearAndDay year day).IsCivil := by
  simp only [ofYearAndDay]
  generalize hMonth : (5 * day + 2) / 153 = month
  have hBound : month ≤ 11 := by omega
  have hShort : isLeapYear (year + 1) = false → day ≤ 364 := by
    intro hf
    by_contra hday
    have hlast : day = 365 := by omega
    rw [hleap hlast] at hf
    cases hf
  -- one case for each month, with and without a long February
  cases hFebruary : isLeapYear (year + 1)
  all_goals
    simp only [hFebruary, forall_const, reduceCtorEq, false_implies] at hShort
    interval_cases month <;> simp [IsCivil, daysInMonth, daysBeforeMonth, hFebruary] <;> omega

/-- **The date of a day number exists in the calendar.** -/
theorem isCivil_ofDayNumber (number : Int) : (ofDayNumber number).IsCivil :=
  isCivil_ofYearAndDay (yearAndDay_le _) isLeapYear_of_last_day

/-! ## The order of years -/

/-- A year has 365 days at least. -/
theorem daysBefore_add_le {y z : Int} (h : y < z) : daysBefore y + 365 ≤ daysBefore z := by
  simp only [daysBefore]
  omega

/-- Later days lie in later years from March on, or are later days of the same one. -/
theorem yearAndDay_mono {m n : Int} (h : m ≤ n) :
    (yearAndDay m).1 < (yearAndDay n).1 ∨
      ((yearAndDay m).1 = (yearAndDay n).1 ∧ (yearAndDay m).2 ≤ (yearAndDay n).2) := by
  have hm := daysBefore_yearAndDay m
  have hn := daysBefore_yearAndDay n
  have hle := yearAndDay_le n
  rcases lt_trichotomy (yearAndDay m).1 (yearAndDay n).1 with hlt | heq | hgt
  · exact .inl hlt
  · rw [heq] at hm
    exact .inr ⟨heq, by omega⟩
  -- an earlier year would put the later day before the earlier one
  · have hyears := daysBefore_add_le hgt
    have hsame : m = n := by omega
    exact .inr ⟨by rw [hsame], by rw [hsame]⟩

/-- The year of a day of a year from March on: January and February belong to the next one. -/
theorem year_ofYearAndDay (year : Int) (day : Nat) :
    (ofYearAndDay year day).year = if day < 306 then year else year + 1 := by
  have hmonth : (5 * day + 2) / 153 < 10 ↔ day < 306 := by omega
  simp only [ofYearAndDay, hmonth]
  split <;> rfl

/-- **Later days lie in later years**, or in the same one. -/
theorem year_ofDayNumber_mono {m n : Int} (h : m ≤ n) :
    (ofDayNumber m).year ≤ (ofDayNumber n).year := by
  have hmono := yearAndDay_mono (m := m + epochDay) (n := n + epochDay) (by omega)
  simp only [ofDayNumber, year_ofYearAndDay]
  split <;> split <;> omega

/-! ## Numbers of dates -/

theorem daysBefore_mono {y z : Int} (h : y ≤ z) : daysBefore y ≤ daysBefore z := by
  rcases eq_or_lt_of_le h with rfl | hlt
  · exact le_rfl
  · have hyears := daysBefore_add_le hlt
    omega

/-- A day of a year comes before every later year begins, the 366th day of a long one included. -/
theorem daysBefore_add_lt {y z : Int} {day : Nat} (h : y < z) (hday : day ≤ 365)
    (hleap : day = 365 → isLeapYear (y + 1) = true) : daysBefore y + day < daysBefore z := by
  have hyears := daysBefore_add_le h
  by_cases hlast : day = 365
  · have hlong := hleap hlast
    have hnext : daysBefore (y + 1) ≤ daysBefore z := daysBefore_mono (by omega)
    simp only [isLeapYear, Bool.and_eq_true, Bool.or_eq_true, beq_iff_eq, bne_iff_ne] at hlong
    have hlength : daysBefore y + 366 = daysBefore (y + 1) := by
      simp only [daysBefore]
      omega
    omega
  · omega

/-- A day of a year from March on is that day of that year. -/
theorem yearAndDay_eq {year : Int} {day : Nat} (hday : day ≤ 365)
    (hleap : day = 365 → isLeapYear (year + 1) = true) :
    yearAndDay (daysBefore year + day) = (year, day) := by
  have hsame := daysBefore_yearAndDay (daysBefore year + day)
  have hle := yearAndDay_le (daysBefore year + day)
  have hlast : (yearAndDay (daysBefore year + day)).2 = 365 →
      isLeapYear ((yearAndDay (daysBefore year + day)).1 + 1) = true := isLeapYear_of_last_day
  generalize yearAndDay (daysBefore year + day) = found at *
  obtain ⟨year', day'⟩ := found
  simp only at hsame hle hlast
  rcases lt_trichotomy year' year with hlt | rfl | hgt
  · have hbefore := daysBefore_add_lt hlt hle hlast
    omega
  · have hdays : day' = day := by omega
    rw [hdays]
  · have hbefore := daysBefore_add_lt hgt hday hleap
    omega

/-- A day of a month from March on is that day of that month. -/
theorem ofYearAndDay_eq (year : Int) (month : Nat) {day : Nat} (hday : 1 ≤ day)
    (hend : daysBeforeMonth month + day ≤ daysBeforeMonth (month + 1)) :
    ofYearAndDay year (daysBeforeMonth month + (day - 1)) =
      if month < 10 then ⟨year, month + 3, day⟩ else ⟨year + 1, month - 9, day⟩ := by
  have hmonth : (5 * (daysBeforeMonth month + (day - 1)) + 2) / 153 = month := by
    simp only [daysBeforeMonth] at *
    omega
  have hdayOfMonth : daysBeforeMonth month + (day - 1) - daysBeforeMonth month + 1 = day := by
    omega
  simp only [ofYearAndDay, hmonth, hdayOfMonth]

/-- From March on every month has its days before the next one begins. -/
theorem daysInMonth_le (year : Int) {month : Nat} (hmarch : 3 ≤ month) (hlast : month ≤ 12) :
    daysBeforeMonth (month - 3) + daysInMonth year month ≤ daysBeforeMonth (month - 3 + 1) := by
  interval_cases month <;> simp [daysInMonth, daysBeforeMonth]

/-- A date that exists is a day of a year from March on. -/
theorem exists_ofYearAndDay {d : Date} (h : d.IsCivil) : ∃ (year : Int) (day : Nat),
    day ≤ 365 ∧ (day = 365 → isLeapYear (year + 1) = true) ∧ ofYearAndDay year day = d := by
  obtain ⟨year, month, day⟩ := d
  obtain ⟨hfirst, hlast, hday, hend⟩ := h
  simp only at hfirst hlast hday hend
  rcases (by omega : month = 1 ∨ month = 2 ∨ 3 ≤ month) with rfl | rfl | hmarch
  -- January and February end the year that began in the March before
  · have hlength : day ≤ 31 := hend
    have hdate := ofYearAndDay_eq (year - 1) 10 hday (by simp [daysBeforeMonth]; omega)
    rw [if_neg (by decide), Int.sub_add_cancel] at hdate
    refine ⟨_, _, ?_, fun hlong => ?_, hdate⟩
    · simp only [daysBeforeMonth]
      omega
    · simp only [daysBeforeMonth] at hlong
      omega
  · have hlength : day ≤ if isLeapYear year then 29 else 28 := hend
    have hshort : day ≤ 29 := by split at hlength <;> omega
    have hdate := ofYearAndDay_eq (year - 1) 11 hday (by simp [daysBeforeMonth]; omega)
    rw [if_neg (by decide), Int.sub_add_cancel] at hdate
    refine ⟨_, _, ?_, fun hlong => ?_, hdate⟩
    · simp only [daysBeforeMonth]
      omega
    -- the last day of the year from March on is the 29th of February
    · simp only [daysBeforeMonth] at hlong
      rw [Int.sub_add_cancel]
      split at hlength
      · assumption
      · omega
  · have hmonth := daysInMonth_le year hmarch hlast
    have hbefore : daysBeforeMonth (month - 3 + 1) ≤ 337 := by
      simp only [daysBeforeMonth]
      omega
    have hdate := ofYearAndDay_eq year (month - 3) hday (by omega)
    rw [if_pos (by omega), Nat.sub_add_cancel hmarch] at hdate
    exact ⟨_, _, by omega, by omega, hdate⟩

/-- **A date that exists is the date of its number.** -/
theorem ofDayNumber_dayNumber {d : Date} (h : d.IsCivil) : ofDayNumber d.dayNumber = d := by
  obtain ⟨year, day, hday, hleap, rfl⟩ := exists_ofYearAndDay h
  have hnumber : daysBefore year + day - epochDay + epochDay = daysBefore year + day := by omega
  rw [dayNumber_ofYearAndDay year hday, ofDayNumber, hnumber, yearAndDay_eq hday hleap]

/-! ## Counting days -/

/-- The days of the first months of a year. -/
def daysOfMonths (year : Int) : (months : Nat) → Nat
  | 0 => 0
  | months + 1 => daysOfMonths year months + daysInMonth year (months + 1)

/-- The days of the first years from year 0 on. -/
def daysOfYears : (years : Nat) → Nat
  | 0 => 0
  | years + 1 => daysOfYears years + daysOfMonths years 12

/-- The days from 1 January of year 0 to a date, counted one month after another. -/
def countedDays (d : Date) : Nat :=
  daysOfYears d.year.toNat + daysOfMonths d.year (d.month - 1) + (d.day - 1)

/-- The first months of a year are January, February and those from March on. -/
theorem daysOfMonths_eq (year : Int) {months : Nat} (h : 2 ≤ months) (h' : months ≤ 12) :
    daysOfMonths year months = daysOfMonths year 2 + daysBeforeMonth (months - 2) := by
  interval_cases months <;> simp [daysOfMonths, daysInMonth, daysBeforeMonth]

/-- A year from March on takes in January and February of the next year. -/
theorem daysBefore_succ (year : Int) :
    daysBefore (year + 1) = daysBefore year + 306 + daysOfMonths (year + 1) 2 := by
  have hlength : daysOfMonths (year + 1) 2 = if isLeapYear (year + 1) then 60 else 59 := by
    cases hleap : isLeapYear (year + 1) <;> simp [daysOfMonths, daysInMonth, hleap]
  rw [hlength]
  simp only [daysBefore, isLeapYear, Bool.and_eq_true, Bool.or_eq_true, beq_iff_eq, bne_iff_ne]
  split <;> omega

/-- The years before a March are those from March on, and the first January and February. -/
theorem daysOfYears_add (years : Nat) :
    (daysOfYears years : Int) + daysOfMonths years 2 = daysBefore years + 60 := by
  induction years with
  | zero => rfl
  | succ years ih =>
    have hnext := daysBefore_succ years
    have hmonths : daysOfMonths years 12 = daysOfMonths years 2 + 306 :=
      daysOfMonths_eq years (by decide) (by decide)
    rw [daysOfYears, hmonths]
    push_cast
    omega

/-- Counting from year 0 begins 719528 days earlier than numbering. -/
theorem countedDays_eq {d : Date} (hc : d.IsCivil) (hy : 0 ≤ d.year) :
    (d.countedDays : Int) = d.dayNumber + 719528 := by
  obtain ⟨year, month, day⟩ := d
  obtain ⟨years, rfl⟩ := Int.eq_ofNat_of_zero_le hy
  obtain ⟨hfirst, hlast, hday, -⟩ := hc
  have hyears := daysOfYears_add years
  simp only at hfirst hlast hday
  simp only [dayNumber, countedDays, Int.toNat_natCast, epochDay]
  rcases (by omega : month ≤ 2 ∨ 3 ≤ month) with hearly | hmarch
  -- January and February end the year that began in the March before
  · have hbefore := daysBefore_succ (years - 1)
    rw [Int.sub_add_cancel] at hbefore
    have hmonths : daysBeforeMonth (month + 9) = 306 + daysOfMonths years (month - 1) := by
      interval_cases month <;> rfl
    rw [if_pos hearly, hmonths]
    omega
  · have hmonths : daysOfMonths years (month - 1) =
        daysOfMonths years 2 + daysBeforeMonth (month - 3) :=
      daysOfMonths_eq years (by omega) (by omega)
    rw [if_neg (by omega), hmonths]
    omega

/-- **The number of a date is what counting comes to**: it is the days from 1 January of year 0 to the
date less those to 1 January of 1970. -/
theorem dayNumber_eq_countedDays {d : Date} (hc : d.IsCivil) (hy : 0 ≤ d.year) :
    d.dayNumber = (d.countedDays : Int) - (⟨1970, 1, 1⟩ : Date).countedDays := by
  have hepoch : (⟨1970, 1, 1⟩ : Date).dayNumber = 0 := by decide
  rw [countedDays_eq hc hy, countedDays_eq (by decide) (by decide), hepoch]
  omega

end Date

namespace Instant

variable {a b c : Instant}

/-! ## The order of instants -/

theorem le_iff : a ≤ b ↔ ¬ b < a := Iff.rfl

theorem le_refl (a : Instant) : a ≤ a := by
  rw [le_iff, lt_iff]
  omega

theorem le_trans (hab : a ≤ b) (hbc : b ≤ c) : a ≤ c := by
  rw [le_iff, lt_iff] at *
  omega

theorem lt_of_le_of_lt (hab : a ≤ b) (hbc : b < c) : a < c := by
  rw [le_iff] at hab
  rw [lt_iff] at *
  omega

/-- The date of an instant on the UTC scale. -/
def date (i : Instant) : Date := Date.ofDayNumber (i.seconds / 86400)

/-- The year of an instant on the UTC scale. -/
def year (i : Instant) : Int := i.date.year

/-- An instant of an earlier year is earlier. -/
theorem lt_of_year_lt (h : a.year < b.year) : a < b := by
  by_contra hnot
  rw [lt_iff] at hnot
  have hdays : b.seconds / 86400 ≤ a.seconds / 86400 := by omega
  have hyears := Date.year_ofDayNumber_mono hdays
  simp only [year, date] at h
  omega

end Instant

end ObjectStore
