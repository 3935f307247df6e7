import Mathlib.Tactic.IntervalCases
import Plc.Calendar

/-!
# The calendar counts days

The count of days that gives a date its ticks begins the year in March and goes by eras of 400 years. What
it counts is seen from a plainer count, which begins with January and adds up the years and the months
before the date. Both are exact, and the first one stays within 64 bits at every step.

## Architecture

- **The calendar**: the table of month lengths, the day after a date, the order of dates.
- **The plain count**: the day after a date has the next number, and a later date a greater one.
- **The reckoning**: the count by eras comes to the plain count without an overflow.

Main statements:

* `CivilDate.dayNumber_next`, `CivilDate.dayNumber_lt`: the plain count keeps step with the calendar.
* `CivilDate.dayCount_is`: the reckoned count is the plain one.
* `CivilDate.ticks?_countsDays`: ticks are a day apart from one date to the next, and nothing else has ticks.
-/

namespace Plc

namespace CivilDate

/-! ## §1 The calendar -/

/-- The lengths of the months from January on. -/
def monthLengths (year : Int) : List Int :=
  [31, if IsLeap year then 29 else 28, 31, 30, 31, 30, 31, 31, 30, 31, 30, 31]

/-- The date is a day of the calendar, in one of the years that are kept. -/
structure InCalendar (d : CivilDate) : Prop where
  least : -1000000 ≤ d.year
  greatest : d.year ≤ 1000000
  month : 1 ≤ d.month
  first : 1 ≤ d.day
  last : ∃ length, (monthLengths d.year)[(d.month - 1).toNat]? = some length ∧ d.day ≤ length

/-- The day after a date. -/
def next (d : CivilDate) : CivilDate :=
  if d.day < daysInMonth d.year d.month then ⟨d.year, d.month, d.day + 1⟩
  else if d.month < 12 then ⟨d.year, d.month + 1, 1⟩
  else ⟨d.year + 1, 1, 1⟩

/-- The one date comes before the other. -/
def Before (d e : CivilDate) : Prop :=
  d.year < e.year ∨ d.year = e.year ∧ (d.month < e.month ∨ d.month = e.month ∧ d.day < e.day)

variable {d e : CivilDate} {year month : Int}

theorem daysInMonth_of_table (least : 1 ≤ month) (greatest : month ≤ 12) :
    (monthLengths year)[(month - 1).toNat]? = some (daysInMonth year month) := by
  interval_cases month <;> rfl

theorem valid_iff_inCalendar : d.Valid ↔ d.InCalendar := by
  constructor
  · rintro ⟨⟨least, greatest⟩, ⟨month, december⟩, first, last⟩
    exact ⟨least, greatest, month, first, _, daysInMonth_of_table month december, last⟩
  · rintro ⟨least, greatest, month, first, length, entry, last⟩
    have december : (d.month - 1).toNat < 12 := (List.getElem?_eq_some_iff.mp entry).1
    rw [daysInMonth_of_table month (by omega), Option.some.injEq] at entry
    exact ⟨⟨least, greatest⟩, ⟨month, by omega⟩, first, entry ▸ last⟩

theorem before_trichotomy (d e : CivilDate) : d.Before e ∨ d = e ∨ e.Before d := by
  obtain ⟨year, month, day⟩ := d
  obtain ⟨year', month', day'⟩ := e
  simp only [Before, CivilDate.mk.injEq]
  omega

theorem le_daysInMonth (year month : Int) : 28 ≤ daysInMonth year month := by
  unfold daysInMonth
  split_ifs <;> decide

theorem daysInMonth_le (year month : Int) : daysInMonth year month ≤ 31 := by
  unfold daysInMonth
  split_ifs <;> decide

/-- The day after a date is a date again, unless its year is no longer kept. -/
theorem valid_next (valid : d.Valid) (kept : d.next.year ≤ 1000000) : d.next.Valid := by
  obtain ⟨⟨least, greatest⟩, ⟨month, december⟩, first, -⟩ := valid
  unfold next at kept ⊢
  split
  case isTrue within => exact ⟨⟨least, greatest⟩, ⟨month, december⟩, Int.le_add_one first, within⟩
  case isFalse =>
    split
    case isTrue within =>
      have days := le_daysInMonth d.year (d.month + 1)
      refine ⟨⟨least, greatest⟩, ⟨Int.le_add_one month, within⟩, Int.le_refl 1, ?_⟩
      dsimp only
      omega
    case isFalse monthEnds yearEnds =>
      rw [if_neg monthEnds, if_neg yearEnds] at kept
      have days := le_daysInMonth (d.year + 1) 1
      refine ⟨⟨Int.le_add_one least, kept⟩, ⟨Int.le_refl 1, ?_⟩, Int.le_refl 1, ?_⟩
      all_goals dsimp only; omega

/-! ## §2 The plain count -/

/-- Days from 1 January of the year 1 to 1 January of the year. -/
def daysBeforeYear (year : Int) : Int :=
  let past := year - 1
  365 * past + past / 4 - past / 100 + past / 400

/-- Days of the year before the month after the first `months` ones. -/
def daysBeforeMonth (year : Int) : Nat → Int
  | 0 => 0
  | months + 1 => daysBeforeMonth year months + daysInMonth year (months + 1)

/-- Days from 1 January 1970 to the date. -/
def dayNumber (d : CivilDate) : Int :=
  daysBeforeYear d.year + daysBeforeMonth d.year (d.month - 1).toNat + d.day - 1 - daysBeforeYear 1970

theorem daysBeforeMonth_le (year : Int) {months later : Nat} (le : months ≤ later) :
    daysBeforeMonth year months ≤ daysBeforeMonth year later := by
  induction le with
  | refl => exact Int.le_refl _
  | @step later _ ih =>
    have positive := le_daysInMonth year (later + 1)
    show _ ≤ daysBeforeMonth year later + daysInMonth year (later + 1)
    omega

theorem daysBeforeMonth_succ (year : Int) {month : Int} (least : 1 ≤ month) :
    daysBeforeMonth year ((month - 1).toNat + 1) =
      daysBeforeMonth year (month - 1).toNat + daysInMonth year month := by
  have number : ((month - 1).toNat : Int) + 1 = month := by omega
  rw [daysBeforeMonth, number]

/-- A leap year has one day more than others. -/
def leapDays (year : Int) : Int := if IsLeap year then 1 else 0

/-- From March on, the months before a month have 153 days in every five of them. -/
theorem daysBeforeMonth_eq (year : Int) {month : Int} (least : 1 ≤ month) (greatest : month ≤ 12) :
    daysBeforeMonth year (month - 1).toNat =
      if month ≤ 2 then (153 * (month + 9) + 2) / 5 - 306
      else (153 * (month - 3) + 2) / 5 + 59 + leapDays year := by
  unfold leapDays
  -- Twelve months, with a leap day before them and without.
  by_cases leap : IsLeap year <;> interval_cases month <;> simp [daysBeforeMonth, daysInMonth, leap]

theorem daysBeforeMonth_end (year : Int) : daysBeforeMonth year 12 = 365 + leapDays year := by
  have november := @daysBeforeMonth_eq year 12 (by decide) (by decide)
  have december : daysBeforeMonth year 12 = daysBeforeMonth year 11 + 31 := rfl
  simp at november
  omega

/-- The leap days up to a year are told by its fourths, hundredths and four hundredths. -/
theorem leapDays_eq (year : Int) :
    leapDays year = year / 4 - (year - 1) / 4 - (year / 100 - (year - 1) / 100)
      + (year / 400 - (year - 1) / 400) := by
  unfold leapDays
  by_cases leap : IsLeap year
  · rw [if_pos leap]
    unfold IsLeap at leap
    omega
  · rw [if_neg leap]
    unfold IsLeap at leap
    omega

theorem daysBeforeYear_succ (year : Int) :
    daysBeforeYear (year + 1) = daysBeforeYear year + daysBeforeMonth year 12 := by
  rw [daysBeforeMonth_end, leapDays_eq]
  simp only [daysBeforeYear, Int.add_sub_cancel]
  omega

/-- The plain count goes up by one from a date to the next. -/
theorem dayNumber_next (valid : d.Valid) : d.next.dayNumber = d.dayNumber + 1 := by
  obtain ⟨-, ⟨least, greatest⟩, -, last⟩ := valid
  -- The month goes on, or the year does, or the year is over.
  unfold next
  split
  case isTrue =>
    simp only [dayNumber]
    omega
  case isFalse monthEnds =>
    have through := daysBeforeMonth_succ d.year least
    split
    case isTrue =>
      have following : (d.month + 1 - 1).toNat = (d.month - 1).toNat + 1 := by omega
      simp only [dayNumber, following, through]
      omega
    case isFalse yearEnds =>
      have december : (d.month - 1).toNat + 1 = 12 := by omega
      have january : daysBeforeMonth (d.year + 1) (1 - 1 : Int).toNat = 0 := rfl
      rw [december] at through
      simp only [dayNumber, daysBeforeYear_succ, january, through]
      omega

theorem daysBeforeYear_le {later : Int} (le : year ≤ later) :
    daysBeforeYear year ≤ daysBeforeYear later := by
  simp only [daysBeforeYear]
  omega

theorem dayNumber_lt_month (valid : d.Valid) {months : Nat} (lt : d.month ≤ months) :
    d.dayNumber < daysBeforeYear d.year + daysBeforeMonth d.year months - daysBeforeYear 1970 := by
  obtain ⟨-, ⟨least, -⟩, -, last⟩ := valid
  have own := daysBeforeMonth_succ d.year least
  have later : daysBeforeMonth d.year ((d.month - 1).toNat + 1) ≤ daysBeforeMonth d.year months :=
    daysBeforeMonth_le d.year (by omega)
  unfold dayNumber
  omega

/-- A later date has a greater number. -/
theorem dayNumber_lt (valid : d.Valid) (valid' : e.Valid) (before : d.Before e) :
    d.dayNumber < e.dayNumber := by
  have first : 1 ≤ e.day := valid'.2.2.1
  -- The year ends before the other date, or the month does, or the days are of one month.
  rcases before with year | ⟨year, month | ⟨month, day⟩⟩
  · have ends := dayNumber_lt_month valid (show d.month ≤ (12 : Nat) from valid.2.1.2)
    have later : daysBeforeYear (d.year + 1) ≤ daysBeforeYear e.year := daysBeforeYear_le year
    have positive : 0 ≤ daysBeforeMonth e.year (e.month - 1).toNat :=
      daysBeforeMonth_le e.year (Nat.zero_le _)
    rw [daysBeforeYear_succ] at later
    show _ < daysBeforeYear e.year + _ + e.day - 1 - daysBeforeYear 1970
    omega
  · have past : d.month ≤ (e.month - 1).toNat := by omega
    have ends := dayNumber_lt_month valid past
    show _ < daysBeforeYear e.year + _ + e.day - 1 - daysBeforeYear 1970
    rw [year] at ends
    omega
  · unfold dayNumber
    rw [year, month]
    omega

theorem dayNumber_lt_iff (valid : d.Valid) (valid' : e.Valid) :
    d.dayNumber < e.dayNumber ↔ d.Before e := by
  constructor
  · intro lt
    rcases before_trichotomy d e with before | rfl | after
    · exact before
    · exact absurd lt (Int.lt_irrefl _)
    · exact absurd (dayNumber_lt valid' valid after) (Int.lt_asymm lt)
  · exact dayNumber_lt valid valid'

theorem dayNumber_injective (valid : d.Valid) (valid' : e.Valid) (same : d.dayNumber = e.dayNumber) :
    d = e := by
  rcases before_trichotomy d e with before | equal | after
  · exact absurd (dayNumber_lt valid valid' before) (Int.not_lt.mpr (Int.le_of_eq same.symm))
  · exact equal
  · exact absurd (dayNumber_lt valid' valid after) (Int.not_lt.mpr (Int.le_of_eq same))

/-! ## §3 The reckoning -/

/-- The year that the date is in, if years begin in March. -/
def yearFromMarch (d : CivilDate) : Int := d.year - if d.month ≤ 2 then 1 else 0

/-- The months from March on that are past. -/
def monthsFromMarch (d : CivilDate) : Int := d.month + if 2 < d.month then -3 else 9

theorem yearFromMarch_bounds (valid : d.Valid) :
    -1000001 ≤ d.yearFromMarch ∧ d.yearFromMarch ≤ 1000000 := by
  obtain ⟨⟨least, greatest⟩, -⟩ := valid
  unfold yearFromMarch
  split <;> omega

theorem monthsFromMarch_bounds (valid : d.Valid) : 0 ≤ d.monthsFromMarch ∧ d.monthsFromMarch ≤ 11 := by
  obtain ⟨-, ⟨least, greatest⟩, -⟩ := valid
  unfold monthsFromMarch
  split <;> omega

/-- Told from March, the plain count needs no leap days of its own. -/
theorem dayNumber_eq (valid : d.Valid) :
    d.dayNumber = 365 * d.yearFromMarch + d.yearFromMarch / 4 - d.yearFromMarch / 100
      + d.yearFromMarch / 400 + ((153 * d.monthsFromMarch + 2) / 5 + d.day - 1) - 719468 := by
  obtain ⟨-, ⟨least, greatest⟩, -⟩ := valid
  have epoch : daysBeforeYear 1970 = 719162 := by decide
  unfold dayNumber yearFromMarch monthsFromMarch
  rw [daysBeforeMonth_eq d.year least greatest, leapDays_eq, epoch]
  simp only [daysBeforeYear]
  -- In January and February the leap day of the year is still to come, later it is past.
  by_cases early : d.month ≤ 2
  · rw [if_pos early, if_pos early, if_neg (Int.not_lt.mpr early)]
    omega
  · rw [if_neg early, if_neg early, if_pos (Int.not_le.mp early)]
    omega

/-- Division that truncates, of a negative year set back to the start of its era, rounds down. -/
theorem tdiv_era (year : Int) : (if year < 0 then year - 399 else year).tdiv 400 = year / 400 := by
  split
  case isTrue negative =>
    have mirrored : (year - 399).tdiv 400 = -((399 - year).tdiv 400) := by
      rw [← Int.neg_tdiv]
      congr 1
      omega
    rw [mirrored, Int.tdiv_eq_ediv_of_nonneg (by omega)]
    omega
  case isFalse nonneg => exact Int.tdiv_eq_ediv_of_nonneg (Int.not_lt.mp nonneg)

section Steps

open Checked

variable {y : Checked} {n : Int}

theorem era_is (is : y.Is n) (least : -1000001 ≤ n) (greatest : n ≤ 1000000) : (era y).Is (n / 400) := by
  have start : (if y.isNegative then y - 399 else y).Is (if n < 0 then n - 399 else n) := by
    rw [is.isNegative_eq]
    by_cases negative : n < 0
    · simp only [negative, decide_true, if_true]
      exact is.sub (is_ofNat 399 (by decide)) ⟨by omega, by omega⟩
    · simpa [negative] using is
  have whole := tdiv_era n
  rw [← whole]
  exact start.div (is_ofNat 400 (by decide)) (by decide) ⟨by omega, by omega⟩

theorem dayOfYear_is (valid : d.Valid) :
    d.dayOfYear.Is ((153 * d.monthsFromMarch + 2) / 5 + d.day - 1) := by
  obtain ⟨least, greatest⟩ := monthsFromMarch_bounds valid
  obtain ⟨-, -, first, last⟩ := valid
  have length := daysInMonth_le d.year d.month
  have months : d.marchMonth.Is d.monthsFromMarch :=
    is_ofInt (show Fits d.monthsFromMarch from ⟨by omega, by omega⟩)
  have product := (is_ofNat 153 (by decide)).mul months ⟨by omega, by omega⟩
  have dividend := product.add (is_ofNat 2 (by decide)) ⟨by omega, by omega⟩
  have before := dividend.ediv (is_ofNat 5 (by decide)) (by omega) (by decide) ⟨by omega, by omega⟩
  have through := before.add (is_ofInt (n := d.day) ⟨by omega, by omega⟩) ⟨by omega, by omega⟩
  exact through.sub (is_ofNat 1 (by decide)) ⟨by omega, by omega⟩

/-- Within an era, the days before a year are told by its own fourths and hundredths. -/
theorem dayOfEra_is {dayOfYear : Checked} {days : Int} (is : y.Is n) (is' : dayOfYear.Is days)
    (least : 0 ≤ n) (greatest : n < 400) (first : 0 ≤ days) (last : days ≤ 367) :
    (dayOfEra y dayOfYear).Is (n * 365 + n / 4 - n / 100 + days) := by
  have plain := is.mul (is_ofNat 365 (by decide)) ⟨by omega, by omega⟩
  have fourths := is.ediv (is_ofNat 4 (by decide)) least (by decide) ⟨by omega, by omega⟩
  have hundredths := is.ediv (is_ofNat 100 (by decide)) least (by decide) ⟨by omega, by omega⟩
  have years := (plain.add fourths ⟨by omega, by omega⟩).sub hundredths ⟨by omega, by omega⟩
  exact years.add is' ⟨by omega, by omega⟩

/-- The reckoned count is the plain one, without an overflow. -/
theorem dayCount_is (valid : d.Valid) : d.dayCount.Is d.dayNumber := by
  obtain ⟨least, greatest⟩ := yearFromMarch_bounds valid
  have months := monthsFromMarch_bounds valid
  have days := dayOfYear_is valid
  have whole := dayNumber_eq valid
  obtain ⟨-, -, first, last⟩ := valid
  have length := daysInMonth_le d.year d.month
  -- Step by step, each outcome is bounded by the years that are kept.
  have year : d.marchYear.Is d.yearFromMarch :=
    is_ofInt (show Fits d.yearFromMarch from ⟨by omega, by omega⟩)
  have ofEra := era_is year least greatest
  have start := ofEra.mul (is_ofNat 400 (by decide)) ⟨by omega, by omega⟩
  have yearOfEra := year.sub start ⟨by omega, by omega⟩
  have within := dayOfEra_is yearOfEra days (by omega) (by omega) (by omega) (by omega)
  have before := ofEra.mul (is_ofNat 146097 (by decide)) ⟨by omega, by omega⟩
  have through := before.add within ⟨by omega, by omega⟩
  have count := through.sub (is_ofNat 719468 (by decide)) ⟨by omega, by omega⟩
  -- A whole number of eras adds up to its years, fourths, hundredths and four hundredths.
  refine count.congr ?_
  omega

end Steps

/-! ## §4 Ticks -/

theorem dayNumber_bounds (valid : d.Valid) :
    -366719468 ≤ d.dayNumber ∧ d.dayNumber ≤ 366000000 := by
  have year := yearFromMarch_bounds valid
  have months := monthsFromMarch_bounds valid
  have whole := dayNumber_eq valid
  obtain ⟨-, -, first, last⟩ := valid
  have length := daysInMonth_le d.year d.month
  omega

theorem ticks?_of_valid (valid : d.Valid) : d.ticks? = some (d.dayNumber * 86400000) := by
  obtain ⟨least, greatest⟩ := dayNumber_bounds valid
  have ticks : (d.dayCount * .ofInt ticksPerDay).Is (d.dayNumber * 86400000) :=
    (dayCount_is valid).mul (Checked.is_ofInt (by decide)) ⟨by omega, by omega⟩
  unfold ticks?
  rw [if_pos valid]
  exact ticks

theorem ticks?_isSome_iff : d.ticks?.isSome ↔ d.Valid := by
  constructor
  · intro some
    by_contra invalid
    rw [ticks?, if_neg invalid] at some
    contradiction
  · intro valid
    rw [ticks?_of_valid valid]
    rfl

/-- What has ticks is a date, and its ticks are its days. -/
theorem exists_days {t : Int} (ticks : d.ticks? = some t) : d.Valid ∧ t = d.dayNumber * 86400000 := by
  have valid : d.Valid := ticks?_isSome_iff.mp (by rw [ticks]; rfl)
  rw [ticks?_of_valid valid, Option.some.injEq] at ticks
  exact ⟨valid, ticks.symm⟩

/-- Ticks are far from the ends of 64 bits. -/
theorem ticks_bounds {t : Int} (ticks : d.ticks? = some t) : -2 ^ 60 ≤ t ∧ t ≤ 2 ^ 60 := by
  obtain ⟨valid, rfl⟩ := exists_days ticks
  have bounds := dayNumber_bounds valid
  omega

theorem exists_ticks (kept : d.InCalendar) : ∃ t, d.ticks? = some t :=
  ⟨_, ticks?_of_valid (valid_iff_inCalendar.mpr kept)⟩

theorem ticks?_of_not_inCalendar (outside : ¬d.InCalendar) : d.ticks? = none :=
  if_neg fun valid => outside (valid_iff_inCalendar.mp valid)

/-- A reckoning of ticks that counts the days of the calendar. -/
structure CountsDays (ticks? : CivilDate → Option Int) : Prop where
  /-- The days of the calendar have ticks, and nothing else. -/
  isSome_iff : ∀ d : CivilDate, (ticks? d).isSome ↔ d.InCalendar
  /-- They come from a count of days, in which no step overflows. -/
  reckoned : ∀ d : CivilDate, d.InCalendar →
    ∃ days : Int, d.dayCount.Is days ∧ ticks? d = some (days * 86400000)
  /-- They begin at 1 January 1970. -/
  epoch : ticks? ⟨1970, 1, 1⟩ = some 0
  /-- From a date to the next one they go on by a day, as long as the years are kept. -/
  next : ∀ (d : CivilDate) (t : Int), ticks? d = some t → d.next.year ≤ 1000000 →
    ticks? d.next = some (t + 86400000)
  /-- They are in the order of the dates. -/
  lt_iff : ∀ (d e : CivilDate) (s t : Int), ticks? d = some s → ticks? e = some t →
    (s < t ↔ d.Before e)
  /-- No two dates share them. -/
  injective : ∀ (d e : CivilDate) (t : Int), ticks? d = some t → ticks? e = some t → d = e

/-- **Civil dates count days.** A year, a month and a day have ticks exactly if they are a day of the
proleptic Gregorian calendar in one of the years that are kept; the ticks of 1 January 1970 are 0, from a
date to the next one they go on by a day, without an overflow on the way, and so they are in the order of
the dates and belong to one date only. -/
theorem ticks?_countsDays : CountsDays ticks? where
  isSome_iff _ := ticks?_isSome_iff.trans valid_iff_inCalendar
  reckoned d kept := by
    have valid := valid_iff_inCalendar.mpr kept
    exact ⟨d.dayNumber, dayCount_is valid, ticks?_of_valid valid⟩
  epoch := by decide
  next d t ticks kept := by
    obtain ⟨valid, rfl⟩ := exists_days ticks
    rw [ticks?_of_valid (valid_next valid kept), dayNumber_next valid, Int.add_mul, Int.one_mul]
  lt_iff d e s t ticks ticks' := by
    obtain ⟨valid, rfl⟩ := exists_days ticks
    obtain ⟨valid', rfl⟩ := exists_days ticks'
    rw [← dayNumber_lt_iff valid valid']
    omega
  injective d e t ticks ticks' := by
    obtain ⟨valid, rfl⟩ := exists_days ticks
    obtain ⟨valid', same⟩ := exists_days ticks'
    exact dayNumber_injective valid valid' (by omega)

end CivilDate

end Plc
