import Mathlib.Tactic.IntervalCases
import RpcSchema.Timestamp.Basic

set_option autoImplicit false

/-!
# Dates and days

The date of a day exists and has the number of the day it is the date of.

## Main definitions

* `RpcSchema.Calendar.yearOfDay` — the year of a cycle that a day of the cycle falls into.

## Main results

* `RpcSchema.Calendar.isDate_ofDayNumber` — the date of a day exists.
* `RpcSchema.Calendar.dayNumber_ofDayNumber` — it is the date of that day.
-/

namespace RpcSchema.Calendar

/-! ## Years of a cycle -/

/-- The year, counted from March, that a day of a cycle of four hundred years falls into. -/
def yearOfDay (day : Int) : Int := (day - day / 1460 + day / 36524 - day / 146096) / 365

/-- The number of days of a cycle before a year of it. -/
def daysBefore (year : Int) : Int := 365 * year + year / 4 - year / 100

/-- **A day of a cycle** lies so many centuries, spans of four years and years after its start, but
for the last day, which is a leap day.

**Proof sketch.** A century lacks one day to be 25 spans of 1461 days. So the days that are taken
off for the leap days before make every span 1460 days long, up to the last day of a span. -/
theorem yearOfDay_eq {day : Int} (hlower : 0 ≤ day) (hupper : day < 146096) :
    ∃ century span year rest : Int, 0 ≤ century ∧ century ≤ 3 ∧ 0 ≤ span ∧ span ≤ 24 ∧
      0 ≤ year ∧ year ≤ 3 ∧ 0 ≤ rest ∧ rest ≤ 365 ∧
      (rest = 365 → year = 3 ∧ span ≠ 24) ∧
      day = 36524 * century + 1461 * span + 365 * year + rest ∧
      yearOfDay day = 100 * century + 4 * span + year := by
  obtain ⟨century, hcentury⟩ : ∃ century, century = day / 36524 := ⟨_, rfl⟩
  obtain ⟨span, hspan⟩ : ∃ span, span = day % 36524 / 1461 := ⟨_, rfl⟩
  obtain ⟨rest, hrest⟩ : ∃ rest, rest = day % 36524 % 1461 := ⟨_, rfl⟩
  have hday : day = 36524 * century + 1461 * span + rest := by omega
  have hyear : yearOfDay day = 100 * century + 4 * span + min (rest / 365) 3 := by
    have hlast : day / 146096 = 0 := by omega
    have hleap : day / 1460 = 25 * century + span + (24 * century + span + rest) / 1460 := by omega
    unfold yearOfDay
    rw [hlast, hleap, ← hcentury]
    omega
  refine ⟨century, span, min (rest / 365) 3, rest - 365 * min (rest / 365) 3, ?_⟩
  omega

theorem yearOfDay_bounds {day : Int} (hlower : 0 ≤ day) (hupper : day ≤ 146096) :
    0 ≤ yearOfDay day ∧ yearOfDay day ≤ 399 := by
  unfold yearOfDay
  omega

/-- The day of the year counts from zero to 365, and is 365 in leap years only. -/
theorem dayOfYear_bounds {day : Int} (hlower : 0 ≤ day) (hupper : day ≤ 146096) :
    0 ≤ day - daysBefore (yearOfDay day) ∧ day - daysBefore (yearOfDay day) ≤ 365 ∧
      (day - daysBefore (yearOfDay day) = 365 → isLeapYear (yearOfDay day + 1) = true) := by
  by_cases hlast : day = 146096
  · subst hlast
    decide
  · obtain ⟨century, span, year, rest, hparts⟩ := yearOfDay_eq hlower (by omega)
    obtain ⟨hc, hc', hs, hs', hy, hy', hr, hr', hleap, hday, hyear⟩ := hparts
    have hbefore : daysBefore (yearOfDay day) = 36524 * century + 1461 * span + 365 * year := by
      have hquarter : (100 * century + 4 * span + year) / 4 = 25 * century + span := by omega
      have hhundredth : (100 * century + 4 * span + year) / 100 = century := by omega
      unfold daysBefore
      rw [hyear, hquarter, hhundredth]
      omega
    refine ⟨by omega, by omega, fun h => ?_⟩
    obtain ⟨rfl, hspan⟩ := hleap (by omega)
    simp only [isLeapYear, hyear, Bool.and_eq_true, decide_eq_true_eq, Bool.or_eq_true]
    omega

/-! ## Days of a year -/

/-- The date of a day of a year, both counted from the first of March. -/
def dateInYear (year dayOfYear : Int) : Date :=
  let month := (5 * dayOfYear + 2) / 153
  let day := dayOfYear - (153 * month + 2) / 5 + 1
  if month < 10 then ⟨year, (month + 3).toNat, day.toNat⟩
  else ⟨year + 1, (month - 9).toNat, day.toNat⟩

theorem ofDayNumber_eq (number : Int) :
    ofDayNumber number =
      dateInYear
        (yearOfDay ((number + 719468) % 146097) + (number + 719468) / 146097 * 400)
        ((number + 719468) % 146097 - daysBefore (yearOfDay ((number + 719468) % 146097))) := rfl

/-- The 29th of February apart, the months have the days that the formula gives them. -/
theorem isDate_dateInYear {year dayOfYear : Int} (hlower : 0 ≤ dayOfYear)
    (hupper : dayOfYear ≤ 365) (hleap : dayOfYear = 365 → isLeapYear (year + 1) = true) :
    isDate (dateInYear year dayOfYear) = true := by
  obtain ⟨month, hmonth⟩ : ∃ month, month = (5 * dayOfYear + 2) / 153 := ⟨_, rfl⟩
  have hfirst : 0 ≤ month := by omega
  have hlast : month ≤ 11 := by omega
  unfold dateInYear
  rw [← hmonth]
  by_cases hday : dayOfYear = 365
  · subst hday
    obtain rfl : month = 11 := by omega
    simp [isDate, daysInMonth, hleap rfl]
  · interval_cases month
    all_goals simp [isDate, daysInMonth]
    all_goals omega

/-- The months before a month have as many days as the formula of `dayNumber` says. -/
theorem dayNumber_dateInYear {year cycle dayOfYear : Int} (hyear : 0 ≤ year) (hyear' : year ≤ 399)
    (hlower : 0 ≤ dayOfYear) (hupper : dayOfYear ≤ 365) :
    dayNumber (dateInYear (year + cycle * 400) dayOfYear) =
      cycle * 146097 + daysBefore year + dayOfYear - 719468 := by
  have hcycle : (year + cycle * 400) / 400 = cycle := by omega
  have hrest : (year + cycle * 400) % 400 = year := by omega
  obtain ⟨month, hmonth⟩ : ∃ month, month = (5 * dayOfYear + 2) / 153 := ⟨_, rfl⟩
  have hday : 0 ≤ dayOfYear - (153 * month + 2) / 5 := by omega
  unfold dateInYear
  rw [← hmonth]
  simp only
  split
  · have hafter : ¬ (month + 3).toNat ≤ 2 := by omega
    have hcast : ((month + 3).toNat : Int) - 3 = month := by omega
    simp only [dayNumber, hafter, ↓reduceIte, hcycle, hrest, hcast, daysBefore]
    omega
  · have hbefore : (month - 9).toNat ≤ 2 := by omega
    have hcast : ((month - 9).toNat : Int) + 9 = month := by omega
    have hback : year + cycle * 400 + 1 - 1 = year + cycle * 400 := by omega
    simp only [dayNumber, hbefore, ↓reduceIte, hback, hcycle, hrest, hcast, daysBefore]
    omega

/-! ## Days -/

/-- **The date of a day exists.** -/
theorem isDate_ofDayNumber (number : Int) : isDate (ofDayNumber number) = true := by
  have hlower : 0 ≤ (number + 719468) % 146097 := by omega
  have hupper : (number + 719468) % 146097 ≤ 146096 := by omega
  obtain ⟨hfirst, hlast, hleap⟩ := dayOfYear_bounds hlower hupper
  rw [ofDayNumber_eq]
  refine isDate_dateInYear hfirst hlast fun h => ?_
  have hyear := hleap h
  simp only [isLeapYear, Bool.and_eq_true, decide_eq_true_eq, Bool.or_eq_true] at hyear ⊢
  omega

/-- **The date of a day** has the number of that day. -/
theorem dayNumber_ofDayNumber (number : Int) : dayNumber (ofDayNumber number) = number := by
  have hlower : 0 ≤ (number + 719468) % 146097 := by omega
  have hupper : (number + 719468) % 146097 ≤ 146096 := by omega
  obtain ⟨hfirst, hlast, -⟩ := dayOfYear_bounds hlower hupper
  obtain ⟨hyear, hyear'⟩ := yearOfDay_bounds hlower hupper
  rw [ofDayNumber_eq, dayNumber_dateInYear hyear hyear' hfirst hlast]
  omega

end RpcSchema.Calendar
