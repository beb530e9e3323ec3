import StellarAgent.Lib.Calendar

set_option autoImplicit false

/-! # Periods of scheduled reports

`addCadence`, `periodForRun` and the runs of `generateDue` in `packages/indexer/src/delivery.ts`,
over the `Date` of the language: milliseconds since 1970 within a range, and not a number outside
it, of which no text can be made. The period of a run starts where a step back from the run leads,
and the next run is a step on from it. A step of months clamps the day, so stepping back from the
next run returns to this one only if its day is in both months. `scheduled_periods_iff` says for
which first runs the periods cover time once.
-/

namespace StellarAgent.Indexer.Schedules

open Lib

/-! ## Dates -/

def msPerDay : ℤ := 86400000

def maxTime : ℤ := 8640000000000000

/-- A time that is too far away is not a number. -/
def timeClip (time : ℤ) : Option ℤ := if -maxTime ≤ time ∧ time ≤ maxTime then some time else none

def makeDate (day time : ℤ) : ℤ := day * msPerDay + time

/-- Months and days may be outside their year and month. -/
def makeDay (year month date : ℤ) : ℤ := monthStart (12 * year + month) + date - 1

/-- `Date.UTC` takes a year of two digits for one of the last century. -/
def makeFullYear (year : ℤ) : ℤ := if 0 ≤ year ∧ year ≤ 99 then 1900 + year else year

def getUTCFullYear (time : ℤ) : ℤ := monthOf (time / msPerDay) / 12

def getUTCMonth (time : ℤ) : ℤ := monthOf (time / msPerDay) % 12

def getUTCDate (time : ℤ) : ℤ := dayOfMonth (time / msPerDay)

def setUTCDate (time date : ℤ) : Option ℤ :=
  timeClip (makeDate (makeDay (getUTCFullYear time) (getUTCMonth time) date) (time % msPerDay))

def setUTCMonth (time month : ℤ) : Option ℤ :=
  timeClip (makeDate (makeDay (getUTCFullYear time) month (getUTCDate time)) (time % msPerDay))

/-- `Date.UTC` -/
def utc (year month date : ℤ) : Option ℤ :=
  timeClip (makeDate (makeDay (makeFullYear year) month date) 0)

/-! ## Schedules -/

inductive ReportCadence where
  | daily
  | weekly
  | monthly
  | quarterly
  deriving DecidableEq

structure StatementPeriod where
  fromTimestamp : ℤ
  throughTimestamp : ℤ
  deriving DecidableEq

/-- The branch of `addCadence` that moves by months -/
def addMonths (value months : ℤ) : Option ℤ := do
  let day := getUTCDate value
  let first ← setUTCDate value 1
  let moved ← setUTCMonth first (getUTCMonth first + months)
  let last ← utc (getUTCFullYear moved) (getUTCMonth moved + 1) 0
  let lastDay := getUTCDate last
  setUTCDate moved (min day lastDay)

/-- Nothing where `toISOString` throws -/
def addCadence (value : ℤ) (cadence : ReportCadence) (amount : ℤ) : Option ℤ :=
  match cadence with
  | .daily => setUTCDate value (getUTCDate value + amount)
  | .weekly => setUTCDate value (getUTCDate value + 7 * amount)
  | .monthly => addMonths value amount
  | .quarterly => addMonths value (3 * amount)

/-- Closed reporting period immediately preceding a schedule boundary -/
def periodForRun (runAt : ℤ) (cadence : ReportCadence) : Option StatementPeriod := do
  let fromTimestamp ← addCadence runAt cadence (-1)
  let throughTimestamp ← timeClip (runAt - 1)
  return { fromTimestamp, throughTimestamp }

/-- The periods of `n` runs of the loop in `generateDue`, or of those before it throws -/
def periodsFrom (cadence : ReportCadence) : ℕ → ℤ → List StatementPeriod
  | 0, _ => []
  | n + 1, runAt =>
      match periodForRun runAt cadence with
      | none => []
      | some period =>
          period :: match addCadence runAt cadence 1 with
            | none => []
            | some next => periodsFrom cadence n next

/-- Each period starts one millisecond after the one before it ends, and no two overlap. -/
structure CoverOnce (periods : List StatementPeriod) : Prop where
  consecutive : periods.IsChain fun p q => q.fromTimestamp = p.throughTimestamp + 1
  disjoint : periods.Pairwise fun p q => p.throughTimestamp < q.fromTimestamp

/-! ## Steps of days -/

theorem timeClip_eq_some {time result : ℤ} :
    timeClip time = some result ↔ (-maxTime ≤ time ∧ time ≤ maxTime) ∧ time = result := by
  unfold timeClip
  split_ifs with h
  · simp [h]
  · simp [h]

theorem setUTCDate_add (value days : ℤ) :
    setUTCDate value (getUTCDate value + days) = timeClip (value + days * msPerDay) := by
  have hmonth : 12 * getUTCFullYear value + getUTCMonth value = monthOf (value / msPerDay) := by
    unfold getUTCFullYear getUTCMonth
    omega
  have hday := monthStart_add_dayOfMonth (value / msPerDay)
  unfold setUTCDate makeDate makeDay getUTCDate msPerDay at *
  rw [hmonth]
  congr 1
  omega

/-! ## Dates by month and day -/

/-- The time on a day of a month -/
def dateAt (month day rest : ℤ) : ℤ := makeDate (monthStart month + day - 1) rest

/-- A day that the month has, and a time of the day -/
structure Valid (month day rest : ℤ) : Prop where
  day_pos : 1 ≤ day
  day_le : day ≤ monthLength month
  rest_nonneg : 0 ≤ rest
  rest_lt : rest < msPerDay

/-- Every time is on a day of a month. -/
theorem exists_dateAt (time : ℤ) :
    ∃ month day rest, Valid month day rest ∧ time = dateAt month day rest := by
  have hbounds := dayOfMonth_bounds (time / msPerDay)
  have hday := monthStart_add_dayOfMonth (time / msPerDay)
  refine ⟨monthOf (time / msPerDay), dayOfMonth (time / msPerDay), time % msPerDay,
    ⟨hbounds.1, hbounds.2, ?_, ?_⟩, ?_⟩
  · unfold msPerDay
    omega
  · unfold msPerDay
    omega
  · unfold dateAt makeDate msPerDay at *
    rw [hday]
    omega

/-- The last day of a month, as `addCadence` finds it -/
def lastDayOf (month : ℤ) : ℤ := monthLength (12 * makeFullYear (month / 12) + month % 12)

section

variable {month day rest : ℤ}

theorem dateAt_div (h : Valid month day rest) :
    dateAt month day rest / msPerDay = monthStart month + day - 1 := by
  have hlow := h.rest_nonneg
  have hhigh := h.rest_lt
  unfold dateAt makeDate msPerDay at *
  omega

theorem dateAt_mod (h : Valid month day rest) : dateAt month day rest % msPerDay = rest := by
  have hlow := h.rest_nonneg
  have hhigh := h.rest_lt
  unfold dateAt makeDate msPerDay at *
  omega

theorem monthOf_dateAt (h : Valid month day rest) :
    monthOf (dateAt month day rest / msPerDay) = month := by
  rw [dateAt_div h]
  exact (monthOf_monthStart_add h.day_pos h.day_le).1

theorem getUTCDate_dateAt (h : Valid month day rest) : getUTCDate (dateAt month day rest) = day := by
  rw [getUTCDate, dateAt_div h]
  exact (monthOf_monthStart_add h.day_pos h.day_le).2

theorem month_eq (h : Valid month day rest) :
    12 * getUTCFullYear (dateAt month day rest) + getUTCMonth (dateAt month day rest) = month := by
  rw [getUTCFullYear, getUTCMonth, monthOf_dateAt h]
  omega

theorem setUTCDate_dateAt (h : Valid month day rest) (date : ℤ) :
    setUTCDate (dateAt month day rest) date = timeClip (dateAt month date rest) := by
  rw [setUTCDate, makeDay, month_eq h, dateAt_mod h]
  rfl

theorem setUTCMonth_dateAt (h : Valid month day rest) (months : ℤ) :
    setUTCMonth (dateAt month day rest) (getUTCMonth (dateAt month day rest) + months) =
      timeClip (dateAt (month + months) day rest) := by
  rw [setUTCMonth, makeDay, ← add_assoc, month_eq h, dateAt_mod h, getUTCDate_dateAt h]
  rfl

/-- The last day of a month at midnight -/
theorem utc_lastDay (h : Valid month day rest) :
    utc (getUTCFullYear (dateAt month day rest)) (getUTCMonth (dateAt month day rest) + 1) 0 =
      timeClip (dateAt (12 * makeFullYear (month / 12) + month % 12) (lastDayOf month) 0) := by
  rw [utc, makeDay, getUTCFullYear, getUTCMonth, monthOf_dateAt h, ← add_assoc, monthStart_succ]
  unfold dateAt lastDayOf
  rw [add_zero]

theorem valid_lastDay (month : ℤ) :
    Valid (12 * makeFullYear (month / 12) + month % 12) (lastDayOf month) 0 := by
  have hbounds := monthLength_bounds (12 * makeFullYear (month / 12) + month % 12)
  exact ⟨by unfold lastDayOf; omega, le_rfl, le_rfl, by decide⟩

theorem Valid.first (h : Valid month day rest) (other : ℤ) : Valid other 1 rest :=
  ⟨le_rfl, by have := (monthLength_bounds other).1; omega, h.rest_nonneg, h.rest_lt⟩

theorem lastDayOf_bounds (month : ℤ) : 28 ≤ lastDayOf month ∧ lastDayOf month ≤ 31 :=
  monthLength_bounds _

/-- It is a day of the month, even of a year that is taken for another. -/
theorem lastDayOf_le (month : ℤ) : lastDayOf month ≤ monthLength month := by
  have hmonth : (12 * makeFullYear (month / 12) + month % 12) % 12 = month % 12 := by omega
  have hyear : (12 * makeFullYear (month / 12) + month % 12) / 12 = makeFullYear (month / 12) := by
    omega
  have hleap : isLeapYear (makeFullYear (month / 12)) = true → isLeapYear (month / 12) = true := by
    rw [isLeapYear_iff, isLeapYear_iff]
    unfold makeFullYear
    split_ifs <;> omega
  unfold lastDayOf monthLength
  rw [hmonth, hyear]
  by_cases hfebruary : month % 12 = 1
  · rw [if_pos hfebruary, if_pos hfebruary]
    cases hother : isLeapYear (makeFullYear (month / 12)) with
    | true => rw [hleap hother]
    | false =>
        simp only [Bool.false_eq_true, if_false]
        split_ifs <;> omega
  · rw [if_neg hfebruary, if_neg hfebruary]

theorem lastDayOf_eq (h : 100 ≤ month / 12) : lastDayOf month = monthLength month := by
  have hyear : makeFullYear (month / 12) = month / 12 := if_neg (by omega)
  rw [lastDayOf, hyear]
  congr 1
  omega

end

/-! ## The range -/

/-- The first and the last month that are wholly within the range -/
def firstMonth : ℤ := 12 * -271821 + 4

def lastMonth : ℤ := 12 * 275760 + 7

section

variable {month day rest : ℤ}

theorem monthStart_firstMonth : monthStart firstMonth = -99999989 := by decide +kernel

theorem monthStart_before_firstMonth : monthStart (firstMonth - 1) = -100000019 := by
  decide +kernel

theorem monthStart_after_lastMonth : monthStart (lastMonth + 1) = 99999988 := by decide +kernel

theorem monthStart_far : monthStart (lastMonth + 2) = 100000018 := by decide +kernel

theorem timeClip_dateAt (h : Valid month day rest) (hfirst : firstMonth ≤ month)
    (hlast : month ≤ lastMonth) :
    timeClip (dateAt month day rest) = some (dateAt month day rest) := by
  have hlow := monthStart_strictMono.monotone hfirst
  have hhigh := monthStart_strictMono.monotone (show month + 1 ≤ lastMonth + 1 by omega)
  rw [monthStart_firstMonth] at hlow
  rw [monthStart_after_lastMonth, monthStart_succ] at hhigh
  have hday := h.day_pos
  have hlength := h.day_le
  have hrest := h.rest_nonneg
  have hms := h.rest_lt
  refine if_pos ?_
  unfold dateAt makeDate maxTime msPerDay at *
  omega

/-- Before the first whole month the range does not reach back to the first of the month. -/
theorem timeClip_early (h : Valid month 1 rest) (hmonth : month < firstMonth) :
    timeClip (dateAt month 1 rest) = none := by
  have hlow := monthStart_strictMono.monotone (show month ≤ firstMonth - 1 by omega)
  rw [monthStart_before_firstMonth] at hlow
  have hms := h.rest_lt
  refine if_neg ?_
  unfold dateAt makeDate maxTime msPerDay at *
  omega

theorem timeClip_late (h : Valid month day rest) (hmonth : lastMonth + 1 < month) :
    timeClip (dateAt month day rest) = none := by
  have hhigh := monthStart_strictMono.monotone (show lastMonth + 2 ≤ month by omega)
  rw [monthStart_far] at hhigh
  have hday := h.day_pos
  have hrest := h.rest_nonneg
  refine if_neg ?_
  unfold dateAt makeDate maxTime msPerDay at *
  omega

/-- The month in which the range ends has no last day in it. -/
theorem timeClip_lastDay_late : timeClip (dateAt (lastMonth + 1) (lastDayOf (lastMonth + 1)) 0) =
    none := by
  decide +kernel

/-- The first of a month is in the range even of the month in which it ends. -/
theorem timeClip_first (h : Valid month 1 rest) (hfirst : firstMonth ≤ month)
    (hlast : month ≤ lastMonth + 1) :
    timeClip (dateAt month 1 rest) = some (dateAt month 1 rest) := by
  have hlow := monthStart_strictMono.monotone hfirst
  have hhigh := monthStart_strictMono.monotone hlast
  rw [monthStart_firstMonth] at hlow
  rw [monthStart_after_lastMonth] at hhigh
  have hrest := h.rest_nonneg
  have hms := h.rest_lt
  refine if_pos ?_
  unfold dateAt makeDate maxTime msPerDay at *
  omega

theorem makeFullYear_month (month : ℤ) :
    12 * makeFullYear (month / 12) + month % 12 = month ∨
      firstMonth ≤ 12 * makeFullYear (month / 12) + month % 12 ∧
        12 * makeFullYear (month / 12) + month % 12 ≤ lastMonth := by
  unfold makeFullYear firstMonth lastMonth
  split_ifs <;> omega

/-- The last day of a month in the range, read off `Date.UTC` -/
theorem utc_lastDay_some (h : Valid month day rest) (hfirst : firstMonth ≤ month)
    (hlast : month ≤ lastMonth) :
    ∃ last, utc (getUTCFullYear (dateAt month day rest))
      (getUTCMonth (dateAt month day rest) + 1) 0 = some last ∧
      getUTCDate last = lastDayOf month := by
  have hvalid := valid_lastDay month
  refine ⟨_, ?_, getUTCDate_dateAt hvalid⟩
  rw [utc_lastDay h]
  rcases makeFullYear_month month with heq | ⟨hlow, hhigh⟩
  · rw [heq] at hvalid ⊢
    exact timeClip_dateAt hvalid hfirst hlast
  · exact timeClip_dateAt hvalid hlow hhigh

/-- **A step of months, by month and day.** -/
theorem addMonths_dateAt (h : Valid month day rest) (hfirst : firstMonth ≤ month)
    (hlast : month ≤ lastMonth + 1) (months : ℤ) :
    addMonths (dateAt month day rest) months =
      if firstMonth ≤ month + months ∧ month + months ≤ lastMonth then
        some (dateAt (month + months) (min day (lastDayOf (month + months))) rest)
      else none := by
  have hstart := h.first month
  have hmoved := h.first (month + months)
  rw [addMonths, setUTCDate_dateAt h, timeClip_first hstart hfirst hlast, Option.bind_eq_bind,
    Option.bind_some, setUTCMonth_dateAt hstart]
  by_cases hearly : month + months < firstMonth
  · rw [timeClip_early hmoved hearly, if_neg (by omega)]
    rfl
  by_cases hlate : lastMonth + 1 < month + months
  · rw [timeClip_late hmoved hlate, if_neg (by omega)]
    rfl
  rw [timeClip_first hmoved (not_lt.mp hearly) (not_lt.mp hlate), Option.bind_some]
  by_cases hend : month + months = lastMonth + 1
  · -- the range ends before the last day of this month
    have hlastDay : timeClip (dateAt (12 * makeFullYear ((month + months) / 12) +
        (month + months) % 12) (lastDayOf (month + months)) 0) = none := by
      rw [hend]
      exact timeClip_lastDay_late
    rw [utc_lastDay hmoved, hlastDay, if_neg (by omega)]
    rfl
  · have hwithin : month + months ≤ lastMonth := by omega
    obtain ⟨last, hlastDay, hdate⟩ := utc_lastDay_some hmoved (not_lt.mp hearly) hwithin
    have hbounds := lastDayOf_bounds (month + months)
    have hclamped : Valid (month + months) (min day (lastDayOf (month + months))) rest :=
      ⟨by have := h.day_pos; omega, by have := lastDayOf_le (month + months); omega,
        h.rest_nonneg, h.rest_lt⟩
    rw [hlastDay, Option.bind_some, hdate, getUTCDate_dateAt h,
      setUTCDate_dateAt hmoved, timeClip_dateAt hclamped (not_lt.mp hearly) hwithin,
      if_pos ⟨not_lt.mp hearly, hwithin⟩]

theorem addMonths_early (h : Valid month day rest) (hmonth : month < firstMonth) (months : ℤ) :
    addMonths (dateAt month day rest) months = none := by
  rw [addMonths, setUTCDate_dateAt h, timeClip_early (h.first month) hmonth]
  rfl

end

/-! ## Runs one after the other -/

section

variable {cadence : ReportCadence} {runAt next : ℤ} {period later : StatementPeriod}

theorem periodForRun_some :
    periodForRun runAt cadence = some period ↔
      addCadence runAt cadence (-1) = some period.fromTimestamp ∧
        (-maxTime ≤ runAt - 1 ∧ runAt - 1 ≤ maxTime) ∧ runAt - 1 = period.throughTimestamp := by
  unfold periodForRun
  rw [← timeClip_eq_some]
  constructor
  · intro h
    obtain ⟨start, hstart, h⟩ := Option.bind_eq_some_iff.mp h
    obtain ⟨through, hthrough, h⟩ := Option.bind_eq_some_iff.mp h
    cases h
    exact ⟨hstart, hthrough⟩
  · rintro ⟨hstart, hthrough⟩
    rw [hstart, hthrough]
    rfl

/-- The next period starts where this one ends exactly if stepping back from the next run returns
to this one. -/
theorem consecutive_iff (hperiod : periodForRun runAt cadence = some period)
    (hlater : periodForRun next cadence = some later) :
    later.fromTimestamp = period.throughTimestamp + 1 ↔
      addCadence next cadence (-1) = some runAt := by
  obtain ⟨-, -, hthrough⟩ := periodForRun_some.mp hperiod
  rw [(periodForRun_some.mp hlater).1, Option.some_inj]
  omega

/-- **Runs that keep an invariant under which stepping back returns cover time once.** -/
theorem chain_of_invariant {I : ℤ → Prop}
    (hstep : ∀ runAt next period, I runAt → periodForRun runAt cadence = some period →
      addCadence runAt cadence 1 = some next →
        I next ∧ ∀ later, periodForRun next cadence = some later →
          addCadence next cadence (-1) = some runAt) (n : ℕ) (h : I runAt) :
    (periodsFrom cadence n runAt).IsChain fun p q => q.fromTimestamp = p.throughTimestamp + 1 := by
  induction n generalizing runAt with
  | zero => exact List.isChain_nil
  | succ n ih =>
      rw [periodsFrom]
      cases hperiod : periodForRun runAt cadence with
      | none => exact List.isChain_nil
      | some period =>
          cases hnext : addCadence runAt cadence 1 with
          | none => exact List.isChain_singleton period
          | some next =>
              obtain ⟨hI, hback⟩ := hstep runAt next period h hperiod hnext
              have htail := ih hI
              dsimp only
              cases n with
              | zero => exact List.isChain_singleton period
              | succ n =>
                  rw [periodsFrom] at htail ⊢
                  cases hlater : periodForRun next cadence with
                  | none => exact List.isChain_singleton period
                  | some later =>
                      rw [hlater] at htail
                      refine List.IsChain.cons_cons ?_ htail
                      exact (consecutive_iff hperiod hlater).mpr (hback later hlater)

/-- What covers time once steps back to where it came from, and its rest covers time once. -/
theorem back_of_chain
    (h : ∀ n, (periodsFrom cadence n runAt).IsChain
      fun p q => q.fromTimestamp = p.throughTimestamp + 1)
    (hperiod : periodForRun runAt cadence = some period)
    (hnext : addCadence runAt cadence 1 = some next) :
    (∀ later, periodForRun next cadence = some later →
        addCadence next cadence (-1) = some runAt) ∧
      ∀ n, (periodsFrom cadence n next).IsChain
        fun p q => q.fromTimestamp = p.throughTimestamp + 1 := by
  have hunfold : ∀ n, periodsFrom cadence (n + 1) runAt = period :: periodsFrom cadence n next := by
    intro n
    rw [periodsFrom, hperiod, hnext]
  refine ⟨fun later hlater => ?_, fun n => ?_⟩
  · have htwo := h 2
    rw [hunfold, periodsFrom, hlater] at htwo
    exact (consecutive_iff hperiod hlater).mp (List.isChain_cons_cons.mp htwo).1
  · have hmore := h (n + 1)
    rw [hunfold] at hmore
    exact hmore.tail

end

/-! ## Periods are not empty -/

theorem dateAt_lt {month month' day day' rest : ℤ} (h : Valid month day rest)
    (h' : Valid month' day' rest) (hlt : month < month') :
    dateAt month day rest < dateAt month' day' rest := by
  have hmono := monthStart_strictMono.monotone (show month + 1 ≤ month' by omega)
  rw [monthStart_succ] at hmono
  have hday := h.day_le
  have hday' := h'.day_pos
  unfold dateAt makeDate msPerDay
  omega

/-- A time in the range is in the first whole month, after it, or before it at the very start. -/
theorem monthOf_le {time : ℤ} (h : time ≤ maxTime) : monthOf (time / msPerDay) ≤ lastMonth + 1 := by
  by_contra hlate
  have hstart := (monthOf_spec (time / msPerDay)).1
  have hmono := monthStart_strictMono.monotone
    (show lastMonth + 2 ≤ monthOf (time / msPerDay) by omega)
  rw [monthStart_far] at hmono
  unfold maxTime msPerDay at *
  omega

/-- A step of months from a time in the range -/
theorem addMonths_some {month day rest : ℤ} (h : Valid month day rest)
    (hlast : month ≤ lastMonth + 1) {months result : ℤ} :
    addMonths (dateAt month day rest) months = some result ↔
      (firstMonth ≤ month ∧ firstMonth ≤ month + months ∧ month + months ≤ lastMonth) ∧
        dateAt (month + months) (min day (lastDayOf (month + months))) rest = result := by
  by_cases hfirst : firstMonth ≤ month
  · rw [addMonths_dateAt h hfirst hlast]
    by_cases hrange : firstMonth ≤ month + months ∧ month + months ≤ lastMonth
    · rw [if_pos hrange, Option.some_inj]
      simp [hfirst, hrange]
    · rw [if_neg hrange]
      simp only [reduceCtorEq, false_iff]
      rintro ⟨⟨-, hrange'⟩, -⟩
      exact hrange hrange'
  · rw [addMonths_early h (not_le.mp hfirst)]
    simp [hfirst]

theorem Valid.clamp {month day rest : ℤ} (h : Valid month day rest) (other : ℤ) :
    Valid other (min day (lastDayOf other)) rest := by
  have hbounds := lastDayOf_bounds other
  exact ⟨by have := h.day_pos; omega, by have := lastDayOf_le other; omega, h.rest_nonneg, h.rest_lt⟩

theorem addCadence_back_lt {runAt previous : ℤ} {cadence : ReportCadence} (h : runAt ≤ maxTime)
    (hback : addCadence runAt cadence (-1) = some previous) : previous < runAt := by
  have hmonths : ∀ months < 0, addMonths runAt months = some previous → previous < runAt := by
    intro months hnegative hmonths
    have hlast := monthOf_le h
    obtain ⟨month, day, rest, hvalid, rfl⟩ := exists_dateAt runAt
    rw [monthOf_dateAt hvalid] at hlast
    obtain ⟨-, rfl⟩ := (addMonths_some hvalid hlast).mp hmonths
    exact dateAt_lt (hvalid.clamp _) hvalid (by omega)
  cases cadence with
  | daily =>
      rw [addCadence, setUTCDate_add, timeClip_eq_some] at hback
      have hms : msPerDay = 86400000 := rfl
      omega
  | weekly =>
      rw [addCadence, setUTCDate_add, timeClip_eq_some] at hback
      have hms : msPerDay = 86400000 := rfl
      omega
  | monthly => exact hmonths (-1) (by omega) hback
  | quarterly => exact hmonths (3 * -1) (by omega) hback

theorem addCadence_le {runAt next amount : ℤ} {cadence : ReportCadence}
    (h : addCadence runAt cadence amount = some next) : next ≤ maxTime := by
  have hclip : ∀ time, timeClip time = some next → next ≤ maxTime := by
    intro time htime
    obtain ⟨⟨-, hle⟩, rfl⟩ := timeClip_eq_some.mp htime
    exact hle
  have hmonths : ∀ months, addMonths runAt months = some next → next ≤ maxTime := by
    intro months hmonths
    obtain ⟨first, -, hmonths⟩ := Option.bind_eq_some_iff.mp hmonths
    obtain ⟨moved, -, hmonths⟩ := Option.bind_eq_some_iff.mp hmonths
    obtain ⟨last, -, hmonths⟩ := Option.bind_eq_some_iff.mp hmonths
    exact hclip _ hmonths
  cases cadence with
  | daily => exact hclip _ h
  | weekly => exact hclip _ h
  | monthly => exact hmonths _ h
  | quarterly => exact hmonths _ h

/-- A period ends after it starts. -/
theorem periodsFrom_ordered {cadence : ReportCadence} (n : ℕ) {runAt : ℤ} (h : runAt ≤ maxTime) :
    ∀ period ∈ periodsFrom cadence n runAt, period.fromTimestamp ≤ period.throughTimestamp := by
  induction n generalizing runAt with
  | zero =>
      intro period hperiod
      cases hperiod
  | succ n ih =>
      intro period hperiod
      rw [periodsFrom] at hperiod
      cases hfirst : periodForRun runAt cadence with
      | none =>
          rw [hfirst] at hperiod
          cases hperiod
      | some first =>
          rw [hfirst] at hperiod
          rcases List.mem_cons.mp hperiod with rfl | hrest
          · obtain ⟨hback, -, hthrough⟩ := periodForRun_some.mp hfirst
            have := addCadence_back_lt h hback
            omega
          · cases hnext : addCadence runAt cadence 1 with
            | none =>
                rw [hnext] at hrest
                cases hrest
            | some next =>
                rw [hnext] at hrest
                exact ih (addCadence_le hnext) period hrest

/-- Periods that follow one another do not overlap. -/
theorem disjoint_of_chain {periods : List StatementPeriod}
    (hchain : periods.IsChain fun p q => q.fromTimestamp = p.throughTimestamp + 1)
    (hordered : ∀ period ∈ periods, period.fromTimestamp ≤ period.throughTimestamp) :
    periods.Pairwise fun p q => p.throughTimestamp < q.fromTimestamp := by
  induction periods with
  | nil => exact List.Pairwise.nil
  | cons p periods ih =>
      have hrest := ih hchain.tail fun q hq => hordered q (List.mem_cons_of_mem p hq)
      refine List.pairwise_cons.mpr ⟨fun r hr => ?_, hrest⟩
      cases periods with
      | nil => cases hr
      | cons q periods =>
          have hnext := (List.isChain_cons_cons.mp hchain).1
          rcases List.mem_cons.mp hr with rfl | hr
          · omega
          · have hlater := (List.pairwise_cons.mp hrest).1 r hr
            have hq := hordered q (List.mem_cons_of_mem p List.mem_cons_self)
            omega

theorem coverOnce_iff {cadence : ReportCadence} {n : ℕ} {runAt : ℤ} (h : runAt ≤ maxTime) :
    CoverOnce (periodsFrom cadence n runAt) ↔ (periodsFrom cadence n runAt).IsChain
      fun p q => q.fromTimestamp = p.throughTimestamp + 1 :=
  ⟨fun hcover => hcover.consecutive,
    fun hchain => ⟨hchain, disjoint_of_chain hchain (periodsFrom_ordered n h)⟩⟩

/-! ## Which first runs cover time once -/

/-- The day of the first run is in every month that a schedule of so many months reaches. -/
def FitsEvery (step first : ℤ) : Prop :=
  firstMonth ≤ monthOf (first / msPerDay) - step →
    ∀ k : ℕ, monthOf (first / msPerDay) + step * k ≤ lastMonth →
      getUTCDate first ≤ lastDayOf (monthOf (first / msPerDay) + step * k)

def DaysFit (first : ℤ) : ReportCadence → Prop
  | .daily => True
  | .weekly => True
  | .monthly => FitsEvery 1 first
  | .quarterly => FitsEvery 3 first

section

variable {cadence : ReportCadence} {step : ℤ}

/-- Steps of days are undone by steps of days. -/
theorem days_chain (days : ℤ)
    (hcadence : ∀ runAt, ∀ amount : ℤ, addCadence runAt cadence amount =
      timeClip (runAt + amount * days * msPerDay)) (n : ℕ) {first : ℤ}
    (h : -maxTime ≤ first ∧ first ≤ maxTime) :
    (periodsFrom cadence n first).IsChain
      fun p q => q.fromTimestamp = p.throughTimestamp + 1 := by
  refine chain_of_invariant (I := fun runAt => -maxTime ≤ runAt ∧ runAt ≤ maxTime)
    (fun runAt next period hI _ hnext => ?_) n h
  rw [hcadence, timeClip_eq_some] at hnext
  obtain ⟨hrange, rfl⟩ := hnext
  refine ⟨hrange, fun later _ => ?_⟩
  rw [hcadence, timeClip_eq_some]
  have hreturn : runAt + 1 * days * msPerDay + -1 * days * msPerDay = runAt := by ring
  rw [hreturn]
  exact ⟨hI, rfl⟩

/-- Steps of months are undone where the day is in both months. -/
theorem months_chain (hstep : 0 < step)
    (hcadence : ∀ runAt, ∀ amount : ℤ, addCadence runAt cadence amount =
      addMonths runAt (step * amount)) (n : ℕ) {month day rest : ℤ} (h : Valid month day rest)
    (hlast : month ≤ lastMonth + 1)
    (hfit : ∀ k : ℕ, month + step * k ≤ lastMonth → day ≤ lastDayOf (month + step * k)) :
    (periodsFrom cadence n (dateAt month day rest)).IsChain
      fun p q => q.fromTimestamp = p.throughTimestamp + 1 := by
  refine chain_of_invariant (I := fun runAt => ∃ month, runAt = dateAt month day rest ∧
    Valid month day rest ∧ month ≤ lastMonth + 1 ∧
      ∀ k : ℕ, month + step * k ≤ lastMonth → day ≤ lastDayOf (month + step * k))
    (fun runAt next period hI _ hnext => ?_) n ⟨month, rfl, h, hlast, hfit⟩
  obtain ⟨month, rfl, hvalid, hlast, hfit⟩ := hI
  rw [hcadence, mul_one, addMonths_some hvalid hlast] at hnext
  obtain ⟨⟨hfirst, -, hwithin⟩, rfl⟩ := hnext
  have hday : day ≤ lastDayOf (month + step) := by
    have hone := hfit 1 (by push_cast; omega)
    rwa [Nat.cast_one, mul_one] at hone
  have hown : day ≤ lastDayOf month := by
    have hzero := hfit 0 (by push_cast; omega)
    rwa [Nat.cast_zero, mul_zero, add_zero] at hzero
  have hnextValid := hvalid.clamp (month + step)
  rw [min_eq_left hday] at hnextValid ⊢
  refine ⟨⟨month + step, rfl, hnextValid, by omega, fun k hk => ?_⟩, fun later _ => ?_⟩
  · have hmore : month + step * ((k + 1 : ℕ) : ℤ) = month + step + step * k := by
      push_cast
      ring
    have hfits := hfit (k + 1) (by rw [hmore]; exact hk)
    rwa [hmore] at hfits
  · have hback : month + step + step * -1 = month := by ring
    rw [hcadence, addMonths_some hnextValid (by omega), hback, min_eq_left hown]
    exact ⟨⟨by omega, hfirst, by omega⟩, rfl⟩

theorem exists_period (hcadence : ∀ runAt, ∀ amount : ℤ, addCadence runAt cadence amount =
      addMonths runAt (step * amount)) {month day rest : ℤ} (h : Valid month day rest)
    (hstep : 0 < step) (hfirst : firstMonth ≤ month - step) (hlast : month ≤ lastMonth + 1)
    (hend : dateAt month day rest ≤ maxTime) :
    ∃ period, periodForRun (dateAt month day rest) cadence = some period := by
  have hback : month + step * -1 = month - step := by ring
  have hstart : -maxTime ≤ dateAt month day rest - 1 := by
    have hmono := monthStart_strictMono.monotone (show firstMonth ≤ month by omega)
    rw [monthStart_firstMonth] at hmono
    have hday := h.day_pos
    have hrest := h.rest_nonneg
    unfold dateAt makeDate maxTime msPerDay at *
    omega
  refine ⟨⟨dateAt (month - step) (min day (lastDayOf (month - step))) rest,
    dateAt month day rest - 1⟩, periodForRun_some.mpr ⟨?_, ⟨hstart, by omega⟩, rfl⟩⟩
  rw [hcadence, addMonths_some h hlast, hback]
  exact ⟨⟨by omega, hfirst, by omega⟩, rfl⟩

/-- A clamped day does not come back: where the next run is consecutive, its month and this one
have the day. -/
theorem months_step (hstep : 0 < step)
    (hcadence : ∀ runAt, ∀ amount : ℤ, addCadence runAt cadence amount =
      addMonths runAt (step * amount)) {month day rest : ℤ} (h : Valid month day rest)
    (hfirst : firstMonth ≤ month - step) (hnext : month + step ≤ lastMonth)
    (hend : dateAt month day rest ≤ maxTime)
    (hchain : ∀ n, (periodsFrom cadence n (dateAt month day rest)).IsChain
      fun p q => q.fromTimestamp = p.throughTimestamp + 1) :
    day ≤ lastDayOf month ∧ Valid (month + step) day rest ∧
      dateAt (month + step) day rest ≤ maxTime ∧
      ∀ n, (periodsFrom cadence n (dateAt (month + step) day rest)).IsChain
        fun p q => q.fromTimestamp = p.throughTimestamp + 1 := by
  obtain ⟨period, hperiod⟩ := exists_period hcadence h hstep hfirst (by omega) hend
  have hforward : addCadence (dateAt month day rest) cadence 1 =
      some (dateAt (month + step) (min day (lastDayOf (month + step))) rest) := by
    rw [hcadence, mul_one, addMonths_some h (by omega)]
    exact ⟨⟨by omega, by omega, hnext⟩, rfl⟩
  have hvalid := h.clamp (month + step)
  have hnextEnd := addCadence_le hforward
  obtain ⟨hback, hrest⟩ := back_of_chain hchain hperiod hforward
  obtain ⟨later, hlater⟩ := exists_period hcadence hvalid hstep (by omega) (by omega) hnextEnd
  have hreturn : month + step + step * -1 = month := by ring
  have hsame := hback later hlater
  rw [hcadence, addMonths_some hvalid (by omega), hreturn] at hsame
  -- the day that comes back is the clamped one
  have hday : min (min day (lastDayOf (month + step))) (lastDayOf month) = day := by
    have heq := hsame.2
    unfold dateAt makeDate msPerDay at heq
    omega
  have hclamped : min day (lastDayOf (month + step)) = day := by omega
  rw [hclamped] at hvalid hnextEnd hrest
  exact ⟨by omega, hvalid, hnextEnd, hrest⟩

theorem months_fit (hstep : 0 < step) (hsmall : step ≤ 12)
    (hcadence : ∀ runAt, ∀ amount : ℤ, addCadence runAt cadence amount =
      addMonths runAt (step * amount)) {month day rest : ℤ} (h : Valid month day rest)
    (hfirst : firstMonth ≤ month - step) (hend : dateAt month day rest ≤ maxTime)
    (hchain : ∀ n, (periodsFrom cadence n (dateAt month day rest)).IsChain
      fun p q => q.fromTimestamp = p.throughTimestamp + 1) (k : ℕ)
    (hk : month + step * k ≤ lastMonth) : day ≤ lastDayOf (month + step * k) := by
  induction k generalizing month with
  | zero =>
      rw [Nat.cast_zero, mul_zero, add_zero] at hk ⊢
      by_cases hnext : month + step ≤ lastMonth
      · exact (months_step hstep hcadence h hfirst hnext hend hchain).1
      · -- the last year of the range is not taken for another
        rw [lastDayOf_eq (by unfold lastMonth at hnext; omega)]
        exact h.day_le
  | succ k ih =>
      have hmore : month + step * ((k + 1 : ℕ) : ℤ) = month + step + step * k := by
        push_cast
        ring
      rw [hmore] at hk ⊢
      have hnonneg : 0 ≤ step * (k : ℤ) := mul_nonneg hstep.le (Int.natCast_nonneg k)
      obtain ⟨-, hvalid, hnextEnd, hrest⟩ :=
        months_step hstep hcadence h hfirst (by omega) hend hchain
      exact ih hvalid (by omega) hnextEnd hrest hk

/-- Where no period is generated at all there is nothing to cover. -/
theorem no_periods (hcadence : ∀ runAt, ∀ amount : ℤ, addCadence runAt cadence amount =
      addMonths runAt (step * amount)) {month day rest : ℤ} (h : Valid month day rest)
    (hlast : month ≤ lastMonth + 1) (hfirst : ¬ firstMonth ≤ month - step) (n : ℕ) :
    periodsFrom cadence n (dateAt month day rest) = [] := by
  cases n with
  | zero => rfl
  | succ n =>
      have hnone : periodForRun (dateAt month day rest) cadence = none := by
        rw [Option.eq_none_iff_forall_not_mem]
        intro period hperiod
        have hback := (periodForRun_some.mp hperiod).1
        rw [hcadence, addMonths_some h hlast] at hback
        omega
      rw [periodsFrom, hnone]

theorem months_cover_iff (hstep : 0 < step) (hsmall : step ≤ 12)
    (hcadence : ∀ runAt, ∀ amount : ℤ, addCadence runAt cadence amount =
      addMonths runAt (step * amount)) {first : ℤ} (hend : first ≤ maxTime) :
    (∀ n, CoverOnce (periodsFrom cadence n first)) ↔ FitsEvery step first := by
  have hlast := monthOf_le hend
  simp only [coverOnce_iff hend]
  unfold FitsEvery
  obtain ⟨month, day, rest, hvalid, rfl⟩ := exists_dateAt first
  rw [monthOf_dateAt hvalid] at hlast ⊢
  rw [getUTCDate_dateAt hvalid]
  constructor
  · intro h hfirst k hk
    exact months_fit hstep hsmall hcadence hvalid hfirst hend h k hk
  · intro h n
    by_cases hfirst : firstMonth ≤ month - step
    · exact months_chain hstep hcadence n hvalid hlast (h hfirst)
    · rw [no_periods hcadence hvalid hlast hfirst]
      exact List.isChain_nil

end

/-! ## Which days fit -/

/-- Of two Februaries in a row one has 28 days. -/
theorem february_short (year : ℤ) :
    lastDayOf (12 * year + 1) = 28 ∨ lastDayOf (12 * (year + 1) + 1) = 28 := by
  have hlast : ∀ y : ℤ, isLeapYear (makeFullYear y) = false → lastDayOf (12 * y + 1) = 28 := by
    intro y hleap
    have hyear : (12 * y + 1) / 12 = y := by omega
    have hmonth : (12 * y + 1) % 12 = 1 := by omega
    have hfull : (12 * makeFullYear y + 1) / 12 = makeFullYear y := by omega
    have hfebruary : (12 * makeFullYear y + 1) % 12 = 1 := by omega
    rw [lastDayOf, hyear, hmonth, monthLength, if_pos hfebruary, hfull, hleap]
    rfl
  cases hleap : isLeapYear (makeFullYear year) with
  | false => exact Or.inl (hlast year hleap)
  | true =>
      refine Or.inr (hlast (year + 1) ?_)
      rw [isLeapYear_iff] at hleap
      rw [← Bool.not_eq_true, isLeapYear_iff]
      unfold makeFullYear at *
      split_ifs at * <;> omega

/-- A schedule that passes through February fits if its day is in every February. -/
theorem fits_february {step first : ℤ} (hstep : step = 1 ∨ step = 3)
    (hclass : step = 3 → monthOf (first / msPerDay) % 3 = 1)
    (hlow : firstMonth ≤ monthOf (first / msPerDay) - step)
    (hhigh : monthOf (first / msPerDay) + 24 ≤ lastMonth) :
    FitsEvery step first ↔ getUTCDate first ≤ 28 := by
  unfold FitsEvery
  generalize monthOf (first / msPerDay) = month at *
  constructor
  · intro h
    have hreach : ∀ year : ℤ, month ≤ 12 * year + 1 → 12 * year + 1 ≤ month + 24 →
        getUTCDate first ≤ lastDayOf (12 * year + 1) := by
      intro year hfrom hto
      obtain ⟨k, hk⟩ : ∃ k : ℕ, month + step * k = 12 * year + 1 := by
        refine ⟨((12 * year + 1 - month) / step).toNat, ?_⟩
        rcases hstep with rfl | rfl
        · omega
        · have := hclass rfl
          omega
      rw [← hk]
      exact h hlow k (by omega)
    have hthis := hreach ((month + 10) / 12) (by omega) (by omega)
    have hnext := hreach ((month + 10) / 12 + 1) (by omega) (by omega)
    rcases february_short ((month + 10) / 12) with hshort | hshort
    · rwa [hshort] at hthis
    · rwa [hshort] at hnext
  · intro h _ k _
    have := (lastDayOf_bounds (month + step * k)).1
    omega

/-- A quarterly schedule that misses February fits if its day is in months of 30 days. -/
theorem fits_quarterly {first : ℤ} (hclass : monthOf (first / msPerDay) % 3 ≠ 1)
    (hlow : firstMonth ≤ monthOf (first / msPerDay) - 3)
    (hhigh : monthOf (first / msPerDay) + 24 ≤ lastMonth) :
    FitsEvery 3 first ↔ getUTCDate first ≤ 30 := by
  unfold FitsEvery
  generalize monthOf (first / msPerDay) = month at *
  constructor
  · intro h
    -- April or June is at most three quarters away
    obtain ⟨k, hk, hmonth⟩ : ∃ k : ℕ, k ≤ 3 ∧
        ((month + 3 * k) % 12 = 3 ∨ (month + 3 * k) % 12 = 5) := by
      refine ⟨((if month % 3 = 0 then 3 - month else 5 - month) % 12 / 3).toNat, ?_, ?_⟩
      · split_ifs <;> omega
      · split_ifs <;> omega
    have hfits := h hlow k (by omega)
    have hlength : lastDayOf (month + 3 * k) = 30 := by
      have hsame : (12 * makeFullYear ((month + 3 * k) / 12) + (month + 3 * k) % 12) % 12 =
          (month + 3 * k) % 12 := by omega
      rw [lastDayOf, monthLength, hsame, if_neg (by omega), if_pos (by omega)]
    rwa [hlength] at hfits
  · intro h _ k _
    have hsame : (12 * makeFullYear ((month + 3 * k) / 12) + (month + 3 * k) % 12) % 12 =
        (month + 3 * k) % 12 := by omega
    rw [lastDayOf, monthLength, hsame, if_neg (by omega)]
    split_ifs <;> omega

/-- **Which days fit**, two years or more before the end of the range: up to the 28th, and up to the
30th for quarters that miss February. -/
theorem daysFit_iff (cadence : ReportCadence) {first : ℤ}
    (hlow : firstMonth ≤ monthOf (first / msPerDay) - 3)
    (hhigh : monthOf (first / msPerDay) + 24 ≤ lastMonth) :
    DaysFit first cadence ↔
      match cadence with
      | .daily => True
      | .weekly => True
      | .monthly => getUTCDate first ≤ 28
      | .quarterly => getUTCDate first ≤ if monthOf (first / msPerDay) % 3 = 1 then 28 else 30 := by
  cases cadence with
  | daily => exact Iff.rfl
  | weekly => exact Iff.rfl
  | monthly => exact fits_february (Or.inl rfl) (fun h => by omega) (by omega) hhigh
  | quarterly =>
      dsimp only [DaysFit]
      split_ifs with hclass
      · exact fits_february (Or.inr rfl) (fun _ => hclass) hlow hhigh
      · exact fits_quarterly hclass hlow hhigh

/-- **Which first runs make the periods of a schedule cover time once**: all for days and weeks,
and for months those whose day is in every month that the schedule reaches. -/
theorem scheduled_periods_iff (cadence : ReportCadence) (first : ℤ)
    (h : -maxTime ≤ first ∧ first ≤ maxTime) :
    (∀ n, CoverOnce (periodsFrom cadence n first)) ↔ DaysFit first cadence := by
  cases cadence with
  | daily =>
      refine iff_of_true (fun n => (coverOnce_iff h.2).mpr (days_chain 1 ?_ n h)) trivial
      intro runAt amount
      rw [addCadence, setUTCDate_add, mul_one]
  | weekly =>
      refine iff_of_true (fun n => (coverOnce_iff h.2).mpr (days_chain 7 ?_ n h)) trivial
      intro runAt amount
      rw [addCadence, setUTCDate_add, mul_comm 7 amount]
  | monthly =>
      refine months_cover_iff (by omega) (by omega) (fun runAt amount => ?_) h.2
      rw [addCadence, one_mul]
  | quarterly => exact months_cover_iff (by omega) (by omega) (fun _ _ => rfl) h.2

theorem scheduled_periods_first_of_month :
    (∀ n, CoverOnce (periodsFrom .monthly n 1767225600000)) ↔ DaysFit 1767225600000 .monthly :=
  scheduled_periods_iff .monthly 1767225600000 (by decide)

/-- A monthly report that first runs on 31 January 2026 runs next on 28 February, for a period that
starts on 28 January. -/
theorem periods_overlap : ¬ ∀ (cadence : ReportCadence) (first : ℤ),
    -maxTime ≤ first ∧ first ≤ maxTime → ∀ n, CoverOnce (periodsFrom cadence n first) := by
  intro h
  have hcover := (h .monthly 1769817600000 (by decide) 2).consecutive
  have hperiods : periodsFrom .monthly 2 1769817600000 =
      [⟨1767139200000, 1769817599999⟩, ⟨1769558400000, 1772236799999⟩] := by
    decide +kernel
  rw [hperiods] at hcover
  exact absurd (List.isChain_cons_cons.mp hcover).1 (by decide)

end StellarAgent.Indexer.Schedules
