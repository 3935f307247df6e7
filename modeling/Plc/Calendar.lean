import Plc.Numeral.Checked

/-!
# Civil dates

Days of the proleptic Gregorian calendar, counted from 1 January 1970 on integers of 64 bits. Dates and
times of day are kept in milliseconds, called ticks.

Main definitions: `CivilDate.Valid`, the days that there are, and `CivilDate.ticks?`, where they are.
-/

namespace Plc

/-- A year, a month and a day, not yet known to name a day of the calendar. -/
structure CivilDate where
  year : Int
  month : Int
  day : Int
  deriving DecidableEq, Repr

namespace CivilDate

/-! ## §1 The calendar -/

/-- A leap year: divisible by four, and by four hundred if it is divisible by a hundred. -/
def IsLeap (year : Int) : Prop := year % 4 = 0 ∧ (year % 100 ≠ 0 ∨ year % 400 = 0)

instance (year : Int) : Decidable (IsLeap year) := by unfold IsLeap; infer_instance

/-- The number of days of a month from 1 to 12. -/
def daysInMonth (year month : Int) : Int :=
  if month = 2 then if IsLeap year then 29 else 28
  else if month = 4 ∨ month = 6 ∨ month = 9 ∨ month = 11 then 30
  else 31

/-- The date names a day, in one of the years that are kept. -/
def Valid (d : CivilDate) : Prop :=
  (-1000000 ≤ d.year ∧ d.year ≤ 1000000) ∧ (1 ≤ d.month ∧ d.month ≤ 12)
    ∧ 1 ≤ d.day ∧ d.day ≤ daysInMonth d.year d.month

instance (d : CivilDate) : Decidable d.Valid := by unfold Valid; infer_instance

/-! ## §2 Counting days -/

/-- The year, beginning in March: January and February belong to the year before. -/
def marchYear (d : CivilDate) : Checked := .ofInt (d.year - if d.month ≤ 2 then 1 else 0)

/-- The months that are past in the year that begins in March. -/
def marchMonth (d : CivilDate) : Checked := .ofInt (d.month + if 2 < d.month then -3 else 9)

/-- The era of a year. All eras have 400 years and the same number of days. -/
def era (year : Checked) : Checked := (if year.isNegative then year - 399 else year) / 400

/-- The days that are past in the year that begins in March, where the leap day comes last. -/
def dayOfYear (d : CivilDate) : Checked := (153 * d.marchMonth + 2) / 5 + .ofInt d.day - 1

/-- The days that are past in an era, before a day of one of its years. -/
def dayOfEra (yearOfEra dayOfYear : Checked) : Checked :=
  yearOfEra * 365 + yearOfEra / 4 - yearOfEra / 100 + dayOfYear

/-- Days from 1 January 1970 to the date. -/
def dayCount (d : CivilDate) : Checked :=
  let year := d.marchYear
  era year * 146097 + dayOfEra (year - era year * 400) d.dayOfYear - 719468

/-! ## §3 Ticks -/

/-- Milliseconds of a day. -/
def ticksPerDay : Int := 86400000

/-- The ticks of midnight at the start of the date, if it names a day. -/
def ticks? (d : CivilDate) : Option Int :=
  if d.Valid then (d.dayCount * .ofInt ticksPerDay).value? else none

end CivilDate

/-- The ticks of a date and a time of day together, if they fit 64 bits. -/
def joinTicks? (date timeOfDay : Int) : Option Int := (Checked.ofInt (date + timeOfDay)).value?

end Plc
