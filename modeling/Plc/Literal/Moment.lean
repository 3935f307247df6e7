import Plc.Binary.Text
import Plc.Calendar
import Plc.Duration
import Plc.Text.Blank
import Plc.Text.Split

/-!
# Durations, dates and times in text

The bodies of literals for TIME, DATE, TOD and DT. A duration is summed as an LREAL value and then
rounded to whole nanoseconds; dates and times of day are made of integer fields.
-/

namespace Plc

namespace Literal

/-! ## §1 Durations -/

/-- The nanoseconds of a unit of time. -/
def unitNanos? (unit : List Char) : Option Int :=
  match String.ofList unit with
  | "D" => some 86400000000000
  | "H" => some 3600000000000
  | "M" => some 60000000000
  | "S" => some 1000000000
  | "MS" => some 1000000
  | "US" => some 1000
  | "NS" => some 1
  | _ => none

/-- A character of an amount: a digit, a point or an underscore. -/
def isAmountChar (c : Char) : Bool := c.isDigit || c = '_' || c = '.'

/-- Helper: a group takes at least its amount off the text. -/
private theorem afterGroup_length {cs : List Char} (amount : cs.takeWhile isAmountChar ≠ []) :
    (((cs.dropWhile isAmountChar).dropWhile Char.isAlpha).dropWhile (· = '_')).length
      < cs.length := by
  have whole := congrArg List.length (List.takeWhile_append_dropWhile (p := isAmountChar) (l := cs))
  have first := (List.dropWhile_sublist (l := cs.dropWhile isAmountChar) Char.isAlpha).length_le
  have second := (List.dropWhile_sublist
    (l := (cs.dropWhile isAmountChar).dropWhile Char.isAlpha) (· = '_')).length_le
  have positive := List.length_pos_iff.mpr amount
  rw [List.length_append] at whole
  omega

/-- Adds groups of an amount and a unit to a total; underscores may follow a group. -/
def sumGroups? (total : Double) (cs : List Char) : Option Double :=
  if cs = [] then some total
  else if _ : cs.takeWhile isAmountChar = [] then none
  else
    let rest := cs.dropWhile isAmountChar
    match Binary.ofChars? ((cs.takeWhile isAmountChar).filter (· ≠ '_')),
        unitNanos? (rest.takeWhile Char.isAlpha) with
    | some count, some nanos =>
      sumGroups? (total + count * .ofInt nanos)
        ((rest.dropWhile Char.isAlpha).dropWhile (· = '_'))
    | _, _ => none
termination_by cs.length
decreasing_by exact afterGroup_length (by assumption)

/-- A duration: an optional sign and at least one group. The bound of the range is that of LREAL, so
a sum that rounds to the limit of 64 bits is held there. -/
def duration? (text : List Char) : Option Duration :=
  let (negative, groups) := Numeral.splitSign (Text.trim text)
  if groups = [] then none
  else
    match sumGroups? (.zero false) groups with
    | none => none
    | some total =>
      match (if negative then -total else total).nearestInt? with
      | none => none
      | some nanos => if nanos.natAbs ≤ 2 ^ 63 then some (.saturate nanos) else none

/-! ## §2 Dates and times of day -/

/-- An integer of 64 bits. -/
def field? (cs : List Char) : Option Int := Numeral.integerWithin? (-2 ^ 63) (2 ^ 63 - 1) cs

/-- An integer that is not negative and below a limit. -/
def fieldBelow? (limit : Int) (cs : List Char) : Option Int :=
  (field? cs).filter fun n => 0 ≤ n && n < limit

/-- The ticks of a date, year, month and day joined by hyphens. -/
def date? (cs : List Char) : Option Int :=
  match Text.fields '-' cs with
  | [year, month, day] => do
    CivilDate.ticks? ⟨← field? year, ← field? month, ← field? day⟩
  | _ => none

/-- Milliseconds from the digits after a point: three of them count, missing ones are zeros. -/
def fractionMillis? (digits : List Char) : Option Int :=
  if digits.all Char.isDigit then
    some (Nat.ofDigitChars 10 ((digits ++ ['0', '0', '0']).take 3) 0)
  else
    none

/-- Milliseconds of a count of seconds with an optional fraction. -/
def secondsMillis? (cs : List Char) : Option Int :=
  match Text.splitFirst? '.' cs with
  | some (whole, fraction) => do
    return (← fieldBelow? 60 whole) * 1000 + (← fractionMillis? fraction)
  | none => (fieldBelow? 60 cs).map (· * 1000)

/-- The ticks of a time of day, hours, minutes and seconds joined by colons. -/
def timeOfDay? (cs : List Char) : Option Int :=
  match Text.fields ':' cs with
  | [hours, minutes, seconds] => do
    return ((← fieldBelow? 24 hours) * 60 + (← fieldBelow? 60 minutes)) * 60000
      + (← secondsMillis? seconds)
  | _ => none

/-- The ticks of a date and a time of day, joined by the last hyphen. -/
def dateAndTime? (cs : List Char) : Option Int :=
  match Text.splitLast? '-' cs with
  | some (date, timeOfDay) => do joinTicks? (← date? date) (← timeOfDay? timeOfDay)
  | none => none

end Literal

end Plc
