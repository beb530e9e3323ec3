import Mathlib.Tactic

set_option autoImplicit false

/-! # The proleptic Gregorian calendar

Days are numbered from 1 January 1970, and months from January of the year 0, so a month may be
moved by adding to its number. Every day is in one month (`monthStart_le`, `lt_monthStart_succ`),
and the days of a month are those from its start on (`monthOf_monthStart_add`).
-/

namespace StellarAgent.Lib

/-! ## Years -/

/-- The number of 1 January -/
def dayFromYear (year : ℤ) : ℤ :=
  365 * (year - 1970) + (year - 1969) / 4 - (year - 1901) / 100 + (year - 1601) / 400

def isLeapYear (year : ℤ) : Bool := year % 4 = 0 && (year % 100 ≠ 0 || year % 400 = 0)

theorem isLeapYear_iff {year : ℤ} :
    isLeapYear year = true ↔ year % 4 = 0 ∧ (year % 100 ≠ 0 ∨ year % 400 = 0) := by
  simp [isLeapYear]

theorem dayFromYear_succ (year : ℤ) :
    dayFromYear (year + 1) = dayFromYear year + if isLeapYear year then 366 else 365 := by
  unfold dayFromYear
  split_ifs with hleap
  · rw [isLeapYear_iff] at hleap
    omega
  · rw [isLeapYear_iff] at hleap
    omega

/-- The year of a day: a guess from the mean length of a year, and one year more or less -/
def yearOf (day : ℤ) : ℤ :=
  let guess := 1970 + day * 400 / 146097
  if day < dayFromYear guess then guess - 1
  else if dayFromYear (guess + 1) ≤ day then guess + 1 else guess

theorem yearOf_spec (day : ℤ) :
    dayFromYear (yearOf day) ≤ day ∧ day < dayFromYear (yearOf day + 1) := by
  unfold yearOf
  dsimp only
  split_ifs with hbelow habove
  · refine ⟨?_, by rwa [sub_add_cancel]⟩
    unfold dayFromYear at *
    omega
  · refine ⟨habove, ?_⟩
    unfold dayFromYear at *
    omega
  · exact ⟨not_lt.mp hbelow, not_le.mp habove⟩

/-! ## Months -/

/-- The days of a year before a month, from 0 for January -/
def daysBefore (leap : Bool) (month : ℤ) : ℤ :=
  let february := if leap then 29 else 28
  if month ≤ 0 then 0 else if month = 1 then 31 else if month = 2 then 31 + february
  else if month = 3 then 62 + february else if month = 4 then 92 + february
  else if month = 5 then 123 + february else if month = 6 then 153 + february
  else if month = 7 then 184 + february else if month = 8 then 215 + february
  else if month = 9 then 245 + february else if month = 10 then 276 + february
  else if month = 11 then 306 + february else 337 + february

/-- The number of the first day of a month -/
def monthStart (month : ℤ) : ℤ :=
  dayFromYear (month / 12) + daysBefore (isLeapYear (month / 12)) (month % 12)

def monthLength (month : ℤ) : ℤ :=
  if month % 12 = 1 then (if isLeapYear (month / 12) then 29 else 28)
  else if month % 12 = 3 ∨ month % 12 = 5 ∨ month % 12 = 8 ∨ month % 12 = 10 then 30 else 31

theorem monthLength_bounds (month : ℤ) : 28 ≤ monthLength month ∧ monthLength month ≤ 31 := by
  unfold monthLength
  split_ifs <;> omega

theorem monthStart_succ (month : ℤ) :
    monthStart (month + 1) = monthStart month + monthLength month := by
  have hcases : month % 12 = 11 ∨ month % 12 < 11 := by omega
  rcases hcases with hlast | hearlier
  · have hyear : (month + 1) / 12 = month / 12 + 1 := by omega
    have hfirst : (month + 1) % 12 = 0 := by omega
    unfold monthStart monthLength daysBefore
    rw [hyear, hfirst, hlast, dayFromYear_succ]
    cases isLeapYear (month / 12) <;> simp <;> ring
  · have hyear : (month + 1) / 12 = month / 12 := by omega
    have hnext : (month + 1) % 12 = month % 12 + 1 := by omega
    have hpos : 0 ≤ month % 12 := by omega
    unfold monthStart monthLength daysBefore
    rw [hyear, hnext]
    generalize month % 12 = m at *
    interval_cases m <;> cases isLeapYear (month / 12) <;> simp <;> ring

theorem monthStart_strictMono : StrictMono monthStart := by
  refine strictMono_int_of_lt_succ fun month => ?_
  have := (monthLength_bounds month).1
  rw [monthStart_succ]
  omega

/-- The months of a year, and the first one of the next -/
theorem monthStart_of_year (year : ℤ) {month : ℤ} (hlow : 0 ≤ month) (hhigh : month ≤ 12) :
    monthStart (12 * year + month) = dayFromYear year + daysBefore (isLeapYear year) month := by
  rcases lt_or_eq_of_le hhigh with hlt | rfl
  · have hyear : (12 * year + month) / 12 = year := by omega
    have hmonth : (12 * year + month) % 12 = month := by omega
    rw [monthStart, hyear, hmonth]
  · have hyear : (12 * year + 12) / 12 = year + 1 := by omega
    have hmonth : (12 * year + 12) % 12 = 0 := by omega
    rw [monthStart, hyear, hmonth, dayFromYear_succ]
    cases isLeapYear year <;> simp [daysBefore]

/-- The last place up to `n` at which the values have not passed `x` -/
def lastBelow (f : ℕ → ℤ) (x : ℤ) : ℕ → ℕ
  | 0 => 0
  | n + 1 => if f (n + 1) ≤ x then n + 1 else lastBelow f x n

theorem lastBelow_spec {f : ℕ → ℤ} {x : ℤ} {n : ℕ} (hfirst : f 0 ≤ x) (hlast : x < f (n + 1)) :
    lastBelow f x n ≤ n ∧ f (lastBelow f x n) ≤ x ∧ x < f (lastBelow f x n + 1) := by
  induction n with
  | zero => exact ⟨le_rfl, hfirst, hlast⟩
  | succ n ih =>
      rw [lastBelow]
      split_ifs with hbelow
      · exact ⟨le_rfl, hbelow, hlast⟩
      · obtain ⟨hle, hspec⟩ := ih (not_le.mp hbelow)
        exact ⟨by omega, hspec⟩

/-- The month of a day of a year, from 0 for January -/
def monthInYear (leap : Bool) (day : ℤ) : ℤ := lastBelow (fun month => daysBefore leap month) day 11

theorem monthInYear_spec (leap : Bool) {day : ℤ} (hlow : 0 ≤ day)
    (hhigh : day < daysBefore leap 12) :
    0 ≤ monthInYear leap day ∧ monthInYear leap day < 12 ∧
      daysBefore leap (monthInYear leap day) ≤ day ∧
      day < daysBefore leap (monthInYear leap day + 1) := by
  obtain ⟨hle, hbefore, hafter⟩ := lastBelow_spec (f := fun month => daysBefore leap month)
    (x := day) (n := 11) (by simpa [daysBefore] using hlow) hhigh
  refine ⟨Int.natCast_nonneg _, ?_, hbefore, hafter⟩
  unfold monthInYear
  omega

/-- The month of a day -/
def monthOf (day : ℤ) : ℤ :=
  12 * yearOf day + monthInYear (isLeapYear (yearOf day)) (day - dayFromYear (yearOf day))

theorem monthOf_spec (day : ℤ) :
    monthStart (monthOf day) ≤ day ∧ day < monthStart (monthOf day + 1) := by
  obtain ⟨hfrom, hto⟩ := yearOf_spec day
  have hyear : dayFromYear (yearOf day + 1) =
      dayFromYear (yearOf day) + daysBefore (isLeapYear (yearOf day)) 12 := by
    have hnext := monthStart_of_year (yearOf day) (show (0 : ℤ) ≤ 12 by omega) le_rfl
    have hsame := monthStart_of_year (yearOf day + 1) le_rfl (show (0 : ℤ) ≤ 12 by omega)
    have hmonth : 12 * (yearOf day + 1) + 0 = 12 * yearOf day + 12 := by ring
    rw [hmonth] at hsame
    simpa [daysBefore] using hsame.symm.trans hnext
  obtain ⟨hlow, hhigh, hbefore, hafter⟩ := monthInYear_spec (isLeapYear (yearOf day))
    (show 0 ≤ day - dayFromYear (yearOf day) by omega)
    (show day - dayFromYear (yearOf day) < daysBefore (isLeapYear (yearOf day)) 12 by omega)
  have hstart := monthStart_of_year (yearOf day) hlow hhigh.le
  have hnext := monthStart_of_year (yearOf day)
    (show 0 ≤ monthInYear (isLeapYear (yearOf day)) (day - dayFromYear (yearOf day)) + 1 by omega)
    (by omega)
  rw [← add_assoc] at hnext
  unfold monthOf
  omega

/-- A day of a month is in that month. -/
theorem monthOf_eq {month day : ℤ} (hlow : monthStart month ≤ day)
    (hhigh : day < monthStart (month + 1)) : monthOf day = month := by
  obtain ⟨hstart, hend⟩ := monthOf_spec day
  have hle : monthOf day < month + 1 := monthStart_strictMono.lt_iff_lt.mp (by omega)
  have hge : month < monthOf day + 1 := monthStart_strictMono.lt_iff_lt.mp (by omega)
  omega

/-! ## Days of a month -/

/-- The day of the month, from 1 -/
def dayOfMonth (day : ℤ) : ℤ := day - monthStart (monthOf day) + 1

theorem dayOfMonth_bounds (day : ℤ) :
    1 ≤ dayOfMonth day ∧ dayOfMonth day ≤ monthLength (monthOf day) := by
  have hspec := monthOf_spec day
  rw [monthStart_succ] at hspec
  unfold dayOfMonth
  omega

/-- The days of a month are counted from its start. -/
theorem monthOf_monthStart_add {month day : ℤ} (hlow : 1 ≤ day) (hhigh : day ≤ monthLength month) :
    monthOf (monthStart month + day - 1) = month ∧
      dayOfMonth (monthStart month + day - 1) = day := by
  have hmonth : monthOf (monthStart month + day - 1) = month :=
    monthOf_eq (by omega) (by rw [monthStart_succ]; omega)
  refine ⟨hmonth, ?_⟩
  rw [dayOfMonth, hmonth]
  omega

theorem monthStart_add_dayOfMonth (day : ℤ) :
    monthStart (monthOf day) + dayOfMonth day - 1 = day := by
  unfold dayOfMonth
  omega

end StellarAgent.Lib
