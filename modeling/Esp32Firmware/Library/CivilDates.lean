import Mathlib.Data.Int.Init
import Mathlib.Tactic.Common

/-!
# Civil dates

Dates of the Gregorian calendar as days since 1970-01-01 and back. A year is counted from March, so
that the leap day is its last one. A broken-down time is a date with a time of the day.
-/

namespace Esp32Firmware.CivilDates

structure Date where
  year : ℤ
  month : ℤ
  day : ℤ
deriving DecidableEq

section

/-- The days before the first of March of a year. -/
def yearStart (y : ℤ) : ℤ := 365 * y + y / 4 - y / 100 + y / 400

/-- The days of a year before its month `m`, where March is 0. -/
def monthStart (m : ℤ) : ℤ := (153 * m + 2) / 5

/-- Days since 1970-01-01. -/
def Date.days (d : Date) : ℤ :=
  yearStart (if d.month ≤ 2 then d.year - 1 else d.year) +
    monthStart (if d.month ≤ 2 then d.month + 9 else d.month - 3) + d.day - 719469

/-- The year of a day of four centuries. -/
def yearOf (day : ℤ) : ℤ :=
  let century := day / 36524 - day / 36524 / 4
  let rest := day - 36524 * century
  let year := rest % 1461 / 365
  100 * century + 4 * (rest / 1461) + (year - year / 4)

/-- The month of a day of a year. -/
def monthOf (day : ℤ) : ℤ := (5 * day + 2) / 153

/-- The day of its four centuries. -/
def dayOfEra (n : ℤ) : ℤ := (n + 719468) % 146097

/-- The day of the year from March on. -/
def dayOfYear (n : ℤ) : ℤ := dayOfEra n - yearStart (yearOf (dayOfEra n))

/-- The date of a day since 1970-01-01. -/
def ofDays (n : ℤ) : Date :=
  let m := monthOf (dayOfYear n)
  { year := yearOf (dayOfEra n) + 400 * ((n + 719468) / 146097) + (if m < 10 then 0 else 1)
    month := if m < 10 then m + 3 else m - 9
    day := dayOfYear n - monthStart m + 1 }

end

section

/-- Centuries, blocks of four years and years, each at most as long as its last one. -/
theorem yearStart_parts {c q p : ℤ} (hc : 0 ≤ c ∧ c ≤ 3) (hq : 0 ≤ q ∧ q ≤ 24)
    (hp : 0 ≤ p ∧ p ≤ 3) :
    yearStart (100 * c + 4 * q + p) = 36524 * c + 1461 * q + 365 * p := by
  have h4 : (100 * c + 4 * q + p) / 4 = 25 * c + q := by omega
  have h100 : (100 * c + 4 * q + p) / 100 = c := by omega
  have h400 : (100 * c + 4 * q + p) / 400 = 0 := by omega
  rw [yearStart, h4, h100, h400]
  omega

theorem yearStart_mono {y y' : ℤ} (h : y ≤ y') : yearStart y ≤ yearStart y' := by
  simp only [yearStart]
  omega

theorem yearOf_spec {day : ℤ} (h : 0 ≤ day) (h' : day < 146097) :
    0 ≤ yearOf day ∧ yearOf day < 400 ∧ yearStart (yearOf day) ≤ day ∧
      day < yearStart (yearOf day + 1) := by
  rw [yearOf]
  have hc : 0 ≤ day / 36524 - day / 36524 / 4 ∧ day / 36524 - day / 36524 / 4 ≤ 3 ∧
      36524 * (day / 36524 - day / 36524 / 4) ≤ day ∧
      day - 36524 * (day / 36524 - day / 36524 / 4) ≤ 36524 ∧
      (day / 36524 - day / 36524 / 4 < 3 →
        day - 36524 * (day / 36524 - day / 36524 / 4) < 36524) := by omega
  generalize day / 36524 - day / 36524 / 4 = c at hc ⊢
  have hrest : 0 ≤ day - 36524 * c ∧ day - 36524 * c ≤ 36524 := by omega
  have hday : day = 36524 * c + (day - 36524 * c) := by omega
  generalize day - 36524 * c = rest at hc hrest hday ⊢
  have hq : 0 ≤ rest / 1461 ∧ rest / 1461 ≤ 24 := by omega
  have hp : 0 ≤ rest % 1461 / 365 - rest % 1461 / 365 / 4 ∧
      rest % 1461 / 365 - rest % 1461 / 365 / 4 ≤ 3 := by omega
  have hyear := yearStart_parts ⟨hc.1, hc.2.1⟩ hq hp
  have hnext : rest < 1461 * (rest / 1461) +
      365 * (rest % 1461 / 365 - rest % 1461 / 365 / 4) + 366 := by omega
  have hless : rest % 1461 / 365 - rest % 1461 / 365 / 4 < 3 → rest < 1461 * (rest / 1461) +
      365 * (rest % 1461 / 365 - rest % 1461 / 365 / 4) + 365 := by omega
  have hstart : 365 * (rest % 1461 / 365 - rest % 1461 / 365 / 4) ≤ rest - 1461 * (rest / 1461) := by
    omega
  generalize rest % 1461 / 365 - rest % 1461 / 365 / 4 = p at hp hyear hnext hless hstart ⊢
  have hq' : rest / 1461 = 24 → rest - 1461 * (rest / 1461) ≤ 1460 := by omega
  generalize rest / 1461 = q at hq hq' hyear hnext hless hstart ⊢
  refine ⟨by omega, by omega, by omega, ?_⟩
  by_cases hlast : p < 3
  · have hnext' : 100 * c + 4 * q + p + 1 = 100 * c + 4 * q + (p + 1) := by omega
    rw [hnext', yearStart_parts ⟨hc.1, hc.2.1⟩ hq (by omega)]
    omega
  by_cases hblock : q < 24
  · have hnext' : 100 * c + 4 * q + p + 1 = 100 * c + 4 * (q + 1) + 0 := by omega
    rw [hnext', yearStart_parts ⟨hc.1, hc.2.1⟩ (by omega) (by omega)]
    omega
  by_cases hcentury : c < 3
  · have hnext' : 100 * c + 4 * q + p + 1 = 100 * (c + 1) + 4 * 0 + 0 := by omega
    rw [hnext', yearStart_parts (by omega) (by omega) (by omega)]
    omega
  · have hnext' : 100 * c + 4 * q + p + 1 = 400 := by omega
    have h400 : yearStart 400 = 146097 := rfl
    rw [hnext', h400]
    exact h'

/-- A day is in one year only. -/
theorem yearOf_eq {day y : ℤ} (h : 0 ≤ day) (h' : day < 146097) (hstart : yearStart y ≤ day)
    (hend : day < yearStart (y + 1)) : yearOf day = y := by
  obtain ⟨-, -, hyear, hyear'⟩ := yearOf_spec h h'
  obtain hlt | heq | hgt := Int.lt_trichotomy (yearOf day) y
  · have hmono := yearStart_mono (show yearOf day + 1 ≤ y by omega)
    omega
  · exact heq
  · have hmono := yearStart_mono (show y + 1 ≤ yearOf day by omega)
    omega

theorem yearStart_succ_le (y : ℤ) : yearStart (y + 1) ≤ yearStart y + 366 := by
  simp only [yearStart]
  omega

theorem le_yearStart_succ (y : ℤ) : yearStart y + 365 ≤ yearStart (y + 1) := by
  simp only [yearStart]
  omega

theorem monthOf_spec {day : ℤ} (h : 0 ≤ day) (h' : day < 366) :
    0 ≤ monthOf day ∧ monthOf day < 12 ∧ monthStart (monthOf day) ≤ day ∧
      day < monthStart (monthOf day + 1) := by
  simp only [monthOf, monthStart]
  omega

theorem yearStart_add_eras (y n : ℤ) : yearStart (y + 400 * n) = yearStart y + 146097 * n := by
  simp only [yearStart]
  omega

theorem dayOfEra_spec (n : ℤ) : 0 ≤ dayOfEra n ∧ dayOfEra n < 146097 := by
  simp only [dayOfEra]
  omega

theorem dayOfYear_spec (n : ℤ) : 0 ≤ dayOfYear n ∧ dayOfYear n < 366 := by
  obtain ⟨-, -, hstart, hend⟩ := yearOf_spec (dayOfEra_spec n).1 (dayOfEra_spec n).2
  have hle := yearStart_succ_le (yearOf (dayOfEra n))
  rw [dayOfYear]
  omega

theorem days_ofDays (n : ℤ) : (ofDays n).days = n := by
  have hday : dayOfEra n = (n + 719468) % 146097 := rfl
  obtain ⟨hmonth, hmonth', -, -⟩ := monthOf_spec (dayOfYear_spec n).1 (dayOfYear_spec n).2
  rw [Date.days, ofDays, dayOfYear]
  simp only [dayOfYear] at hmonth hmonth' ⊢
  generalize yearOf (dayOfEra n) = y at hmonth hmonth' ⊢
  generalize monthOf (dayOfEra n - yearStart y) = m at hmonth hmonth' ⊢
  by_cases hm : m < 10
  · rw [if_pos hm, if_pos hm, if_neg (by omega), if_neg (by omega), Int.add_zero,
      yearStart_add_eras]
    have hback : m + 3 - 3 = m := by omega
    rw [hback]
    omega
  · rw [if_neg hm, if_neg hm, if_pos (by omega), if_pos (by omega)]
    have hback : m - 9 + 9 = m := by omega
    have hyear : y + 400 * ((n + 719468) / 146097) + 1 - 1 =
      y + 400 * ((n + 719468) / 146097) := by omega
    rw [hback, hyear, yearStart_add_eras]
    omega

theorem day_le (n : ℤ) : (ofDays n).day ≤ 31 := by
  obtain ⟨-, -, -, hend⟩ := monthOf_spec (dayOfYear_spec n).1 (dayOfYear_spec n).2
  simp only [ofDays, monthStart] at hend ⊢
  omega

end

section

theorem dayOfYear_succ (n : ℤ) :
    dayOfYear (n + 1) = dayOfYear n + 1 ∨ (dayOfYear (n + 1) = 0 ∧ 364 ≤ dayOfYear n) := by
  obtain ⟨hlow, hhigh⟩ := dayOfEra_spec n
  obtain ⟨hyear, hyear', hstart, hend⟩ := yearOf_spec hlow hhigh
  have hlong := le_yearStart_succ (yearOf (dayOfEra n))
  by_cases hera : dayOfEra n + 1 < 146097
  · have hnext : dayOfEra (n + 1) = dayOfEra n + 1 := by
      simp only [dayOfEra] at hera ⊢
      omega
    by_cases hsame : dayOfEra n + 1 < yearStart (yearOf (dayOfEra n) + 1)
    · left
      rw [dayOfYear, hnext, yearOf_eq (by omega) hera (by omega) hsame, dayOfYear]
      omega
    · right
      have hlast := le_yearStart_succ (yearOf (dayOfEra n) + 1)
      rw [dayOfYear, hnext, yearOf_eq (y := yearOf (dayOfEra n) + 1) (by omega) hera (by omega)
        (by omega), dayOfYear]
      omega
  · right
    have hnext : dayOfEra (n + 1) = 0 := by
      simp only [dayOfEra] at hera ⊢
      omega
    have hzero : dayOfYear (n + 1) = 0 := by
      rw [dayOfYear, hnext]
      rfl
    have hmono := yearStart_mono (show yearOf (dayOfEra n) ≤ 399 by omega)
    have h399 : yearStart 399 = 145731 := rfl
    refine ⟨hzero, ?_⟩
    rw [dayOfYear]
    omega

/-- The month of a day, where March is 0. -/
def monthIndex (n : ℤ) : ℤ := monthOf (dayOfYear n)

theorem monthIndex_succ (n : ℤ) :
    monthIndex (n + 1) = monthIndex n ∨ monthIndex (n + 1) = (monthIndex n + 1) % 12 := by
  obtain ⟨hlow, hhigh⟩ := dayOfYear_spec n
  obtain hnext | ⟨hnext, hlast⟩ := dayOfYear_succ n
  · have hmonth := monthOf_spec (dayOfYear_spec (n + 1)).1 (dayOfYear_spec (n + 1)).2
    rw [hnext] at hmonth
    have hsame : monthOf (dayOfYear n + 1) = monthOf (dayOfYear n) ∨
        monthOf (dayOfYear n + 1) = monthOf (dayOfYear n) + 1 := by
      simp only [monthOf]
      omega
    rw [monthIndex, monthIndex, hnext]
    omega
  · have hfeb : monthOf (dayOfYear n) = 11 := by
      rw [monthOf]
      omega
    rw [monthIndex, monthIndex, hnext, hfeb]
    decide

theorem month_eq_iff (n k : ℤ) : (ofDays n).month = (ofDays k).month ↔
    monthIndex n = monthIndex k := by
  obtain ⟨hlow, hhigh, -⟩ := monthOf_spec (dayOfYear_spec n).1 (dayOfYear_spec n).2
  obtain ⟨hlow', hhigh', -⟩ := monthOf_spec (dayOfYear_spec k).1 (dayOfYear_spec k).2
  simp only [ofDays, monthIndex]
  split_ifs <;> omega

/-- The next date is in another month. -/
def IsLastDay (n : ℤ) : Prop := (ofDays (n + 1)).month ≠ (ofDays n).month

/-- Two days behind the last one of a month it is another month still. -/
theorem IsLastDay.month_add_two {n : ℤ} (h : IsLastDay n) :
    (ofDays (n + 2)).month ≠ (ofDays n).month := by
  obtain ⟨hlow, hhigh, -⟩ := monthOf_spec (dayOfYear_spec n).1 (dayOfYear_spec n).2
  have hnext := monthIndex_succ n
  have hnext' := monthIndex_succ (n + 1)
  have htwo : n + 1 + 1 = n + 2 := by omega
  rw [IsLastDay, ne_eq, month_eq_iff] at h
  rw [ne_eq, month_eq_iff]
  rw [htwo] at hnext'
  change 0 ≤ monthIndex n at hlow
  change monthIndex n < 12 at hhigh
  omega

end

/-- `struct tm`: years count from 1900, months and the days of the week from 0. -/
structure StructTm where
  sec : ℤ
  min : ℤ
  hour : ℤ
  mday : ℤ
  mon : ℤ
  year : ℤ
  wday : ℤ := 0
  isdst : Bool := false
deriving DecidableEq

/-- The seconds of a time in UTC. -/
def StructTm.utc (tm : StructTm) : ℤ :=
  (Date.mk (tm.year + 1900) (tm.mon + 1) tm.mday).days * 86400 + tm.hour * 3600 + tm.min * 60 +
    tm.sec

def gmtime (t : ℤ) : StructTm :=
  let date := ofDays (t / 86400)
  { sec := t % 60
    min := t % 3600 / 60
    hour := t % 86400 / 3600
    mday := date.day
    mon := date.month - 1
    year := date.year - 1900
    wday := (t / 86400 + 4) % 7 }

theorem utc_gmtime (t : ℤ) : (gmtime t).utc = t := by
  rw [StructTm.utc, gmtime]
  simp only [Int.sub_add_cancel]
  rw [days_ofDays]
  omega

end Esp32Firmware.CivilDates
