import Mathlib.Tactic.IntervalCases

/-!
The proleptic Gregorian calendar: dates as days since 1970-01-01. Years are
counted from March on, so that the leap day comes last in each year, cycle of
four years and era of four hundred.
-/

namespace Ulpf.Lib.Calendar

/-- The length of a day without leap seconds. -/
def secondsPerDay : ℤ := 86400

/-- A leap year of the Gregorian calendar. -/
def isLeap (year : ℤ) : Bool := year % 4 = 0 && (year % 100 ≠ 0 || year % 400 = 0)

def daysIn (month : ℕ) (year : ℤ) : ℕ :=
  if month = 2 then if isLeap year then 29 else 28
  else if month = 4 ∨ month = 6 ∨ month = 9 ∨ month = 11 then 30
  else 31

/-- Days of a year of an era before its `month`-th month from March on. -/
def daysBefore (month : ℤ) : ℤ := (153 * month + 2) / 5

/-- Days since 1970-01-01 of a date; a day beyond the month runs into the next one. -/
def daysFromCivil (year : ℤ) (month : ℕ) (day : ℤ) : ℤ :=
  let y := if month ≤ 2 then year - 1 else year
  let monthFromMarch : ℤ := if month ≤ 2 then month + 9 else month - 3
  let yearOfEra := y % 400
  y / 400 * 146097 + (yearOfEra * 365 + yearOfEra / 4 - yearOfEra / 100) +
    (daysBefore monthFromMarch + day - 1) - 719468

/-- Year of the era and day of the year of a day of an era. -/
def splitEra (dayOfEra : ℤ) : ℤ × ℤ :=
  -- the last century and the last year of a cycle may be a day longer
  let century := min (dayOfEra / 36524) 3
  let dayOfCentury := dayOfEra - century * 36524
  let cycle := dayOfCentury / 1461
  let dayOfCycle := dayOfCentury % 1461
  let year := min (dayOfCycle / 365) 3
  (century * 100 + cycle * 4 + year, dayOfCycle - year * 365)

/-- Year, month and day of a day of a year that begins in March. -/
def ofYearDay (year dayOfYear : ℤ) : ℤ × ℕ × ℕ :=
  let monthFromMarch := (5 * dayOfYear + 2) / 153
  let day := dayOfYear - daysBefore monthFromMarch + 1
  if monthFromMarch < 10 then (year, (monthFromMarch + 3).toNat, day.toNat)
  else (year + 1, (monthFromMarch - 9).toNat, day.toNat)

/-- Year, month and day of a number of days since 1970-01-01. -/
def civilFromDays (days : ℤ) : ℤ × ℕ × ℕ :=
  let z := days + 719468
  let (yearOfEra, dayOfYear) := splitEra (z % 146097)
  ofYearDay (z / 146097 * 400 + yearOfEra) dayOfYear

/-- Seconds since the epoch of a date and a time of day. -/
def seconds (year : ℤ) (month : ℕ) (day : ℤ) (hour min sec : ℕ) : ℤ :=
  daysFromCivil year month day * secondsPerDay + (hour * 3600 + min * 60 + sec : ℕ)

/-- The days of the first years of an era. -/
def daysOfYears (yearOfEra : ℤ) : ℤ := yearOfEra * 365 + yearOfEra / 4 - yearOfEra / 100

/-- A year of an era has 365 days, or 366 when a leap day ends it. -/
theorem splitEra_spec {dayOfEra : ℤ} (h : 0 ≤ dayOfEra ∧ dayOfEra < 146097) {y d : ℤ}
    (hsplit : splitEra dayOfEra = (y, d)) :
    (0 ≤ y ∧ y < 400) ∧ (0 ≤ d ∧ d ≤ 365) ∧
      (d = 365 → y % 4 = 3 ∧ (y % 100 ≠ 99 ∨ y = 399)) ∧ daysOfYears y + d = dayOfEra := by
  obtain ⟨rfl, rfl⟩ := Prod.mk.inj hsplit
  rw [daysOfYears]
  have hcentury : 0 ≤ min (dayOfEra / 36524) 3 ∧ min (dayOfEra / 36524) 3 ≤ 3 := by omega
  generalize hc : min (dayOfEra / 36524) 3 = century at *
  have hday : 0 ≤ dayOfEra - century * 36524 ∧
      (dayOfEra - century * 36524 < 36524 ∨ century = 3 ∧ dayOfEra - century * 36524 = 36524) := by
    omega
  generalize hd : dayOfEra - century * 36524 = dayOfCentury at *
  have hcycle : 0 ≤ dayOfCentury / 1461 ∧ dayOfCentury / 1461 ≤ 24 := by omega
  have hsum : dayOfCentury = dayOfCentury / 1461 * 1461 + dayOfCentury % 1461 := by omega
  have hin : 0 ≤ dayOfCentury % 1461 ∧ dayOfCentury % 1461 < 1461 := by omega
  generalize dayOfCentury / 1461 = cycle at *
  generalize dayOfCentury % 1461 = dayOfCycle at *
  have hyear : 0 ≤ min (dayOfCycle / 365) 3 ∧ min (dayOfCycle / 365) 3 ≤ 3 := by omega
  have hrest : 0 ≤ dayOfCycle - min (dayOfCycle / 365) 3 * 365 ∧
      (dayOfCycle - min (dayOfCycle / 365) 3 * 365 < 365 ∨
        min (dayOfCycle / 365) 3 = 3 ∧ dayOfCycle - min (dayOfCycle / 365) 3 * 365 = 365) := by
    omega
  generalize min (dayOfCycle / 365) 3 = year at *
  have hquarter : (century * 100 + cycle * 4 + year) / 4 = century * 25 + cycle := by omega
  have hhundredth : (century * 100 + cycle * 4 + year) / 100 = century := by omega
  refine ⟨by omega, by omega, ?_, by omega⟩
  intro hleap
  omega

theorem daysFromCivil_eq (year : ℤ) (month : ℕ) (day : ℤ) :
    daysFromCivil year month day =
      if month ≤ 2 then (year - 1) / 400 * 146097 + daysOfYears ((year - 1) % 400) +
        (daysBefore (month + 9) + day - 1) - 719468
      else year / 400 * 146097 + daysOfYears (year % 400) +
        (daysBefore (month - 3) + day - 1) - 719468 := by
  rw [daysFromCivil]
  split <;> rfl

theorem ofYearDay_spec {era y d : ℤ} (hy : 0 ≤ y ∧ y < 400) (hd : 0 ≤ d ∧ d ≤ 365)
    (hleap : d = 365 → y % 4 = 3 ∧ (y % 100 ≠ 99 ∨ y = 399)) {year : ℤ} {month day : ℕ}
    (h : ofYearDay (era * 400 + y) d = (year, month, day)) :
    (1 ≤ month ∧ month ≤ 12) ∧ (1 ≤ day ∧ day ≤ daysIn month year) ∧
      daysFromCivil year month day = era * 146097 + daysOfYears y + d - 719468 := by
  have hdiv : (era * 400 + y) / 400 = era := by omega
  have hmod : (era * 400 + y) % 400 = y := by omega
  have hmonth : 0 ≤ (5 * d + 2) / 153 ∧ (5 * d + 2) / 153 ≤ 11 := by omega
  rw [daysFromCivil_eq]
  simp only [ofYearDay, daysBefore] at h ⊢
  generalize hm : (5 * d + 2) / 153 = m at *
  obtain ⟨hm0, hm11⟩ := hmonth
  interval_cases m <;> simp at h <;> obtain ⟨rfl, rfl, rfl⟩ := h <;>
    simp [daysIn, isLeap, hdiv, hmod] <;> omega

theorem civilFromDays_spec {days year : ℤ} {month day : ℕ}
    (h : civilFromDays days = (year, month, day)) :
    (1 ≤ month ∧ month ≤ 12) ∧ (1 ≤ day ∧ day ≤ daysIn month year) ∧
      daysFromCivil year month day = days := by
  cases hsplit : splitEra ((days + 719468) % 146097) with
  | mk y d =>
      obtain ⟨hy, hd, hleap, hsum⟩ := splitEra_spec (by omega) hsplit
      simp only [civilFromDays, hsplit] at h
      obtain ⟨hmonth, hday, hdays⟩ := ofYearDay_spec hy hd hleap h
      exact ⟨hmonth, hday, by omega⟩

section Years

theorem daysOfEra_eq (y : ℤ) : y / 400 * 146097 + daysOfYears (y % 400) =
    365 * y + y / 4 - y / 100 + y / 400 := by
  rw [daysOfYears]
  omega

theorem daysOfEra_le {y z : ℤ} (h : y ≤ z) : y / 400 * 146097 + daysOfYears (y % 400) +
    365 * (z - y) ≤ z / 400 * 146097 + daysOfYears (z % 400) := by
  rw [daysOfEra_eq, daysOfEra_eq]
  omega

/-- First day of a year. -/
def yearStart (year : ℤ) : ℤ := daysFromCivil year 1 1

theorem daysFromCivil_lt_iff {year : ℤ} {month day : ℕ} (hmonth : 1 ≤ month ∧ month ≤ 12)
    (hday : 1 ≤ day ∧ day ≤ 31) (start : ℤ) :
    daysFromCivil year month day < yearStart start ↔ year < start := by
  have hstart : yearStart start =
      (start - 1) / 400 * 146097 + daysOfYears ((start - 1) % 400) + 306 - 719468 := by
    rw [yearStart, daysFromCivil_eq, if_pos (by decide)]
    have hbefore : daysBefore ((1 : ℕ) + 9) = 306 := by decide
    rw [hbefore]
    omega
  rw [hstart, daysFromCivil_eq]
  split
  · rename_i hwinter
    have hbefore : 306 ≤ daysBefore (month + 9) ∧ daysBefore (month + 9) ≤ 337 := by
      rw [daysBefore]
      omega
    have hfirst : month = 1 → daysBefore (month + 9) = 306 := by
      rintro rfl
      rfl
    constructor
    · intro hlt
      by_contra hle
      have hmono := daysOfEra_le (show start - 1 ≤ year - 1 by omega)
      omega
    · intro hlt
      have hmono := daysOfEra_le (show year - 1 ≤ start - 1 by omega)
      omega
  · have hbefore : 0 ≤ daysBefore (month - 3) ∧ daysBefore (month - 3) ≤ 275 := by
      rw [daysBefore]
      omega
    constructor
    · intro hlt
      by_contra hle
      have hmono := daysOfEra_le (show start - 1 ≤ year by omega)
      omega
    · intro hlt
      have hmono := daysOfEra_le (show year ≤ start - 1 by omega)
      omega

theorem civilFromDays_lt_iff {days year : ℤ} {month day : ℕ}
    (h : civilFromDays days = (year, month, day)) (start : ℤ) :
    days < yearStart start ↔ year < start := by
  obtain ⟨hmonth, hday, hdays⟩ := civilFromDays_spec h
  have hlength : daysIn month year ≤ 31 := by
    rw [daysIn]
    split_ifs <;> omega
  rw [← hdays]
  exact daysFromCivil_lt_iff hmonth ⟨hday.1, hday.2.trans hlength⟩ start

end Years

end Ulpf.Lib.Calendar
