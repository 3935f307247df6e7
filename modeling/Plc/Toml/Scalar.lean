import Plc.Binary.Text
import Plc.Calendar
import Plc.Numeral.Integer

/-!
# Numbers, dates and truth values of TOML

Each reader takes a whole word and answers if it has the form of that kind of value.
-/

namespace Plc.Toml

/-! ## §1 Integers -/

/-- The digits of a run in which single underscores may stand between two digits. -/
def digitRun? (isDigit : Char → Bool) : List Char → Option (List Char)
  | [] => none
  | [c] => if isDigit c then some [c] else none
  | c :: '_' :: rest => if isDigit c then (digitRun? isDigit rest).map (c :: ·) else none
  | c :: rest => if isDigit c then (digitRun? isDigit rest).map (c :: ·) else none

/-- A run of decimal digits without a superfluous zero in front. -/
def plainRun? (cs : List Char) : Option (List Char) :=
  match digitRun? Char.isDigit cs with
  | some ('0' :: _ :: _) => none
  | run => run

/-- An integer of the given radix, without a sign. -/
def radixInteger? (radix : Nat) (cs : List Char) : Option Int :=
  (digitRun? (fun c => (Numeral.digit? radix c).isSome) cs).bind fun digits =>
    (Numeral.natural? radix digits).map Int.ofNat

/-- An integer of any size. -/
def integer? (cs : List Char) : Option Int :=
  match cs with
  | '0' :: 'x' :: digits => radixInteger? 16 digits
  | '0' :: 'o' :: digits => radixInteger? 8 digits
  | '0' :: 'b' :: digits => radixInteger? 2 digits
  | _ =>
    let (negative, body) := Numeral.splitSign cs
    (plainRun? body).bind fun digits =>
      (Numeral.natural? 10 digits).map fun (n : Nat) => if negative then -(n : Int) else n

/-! ## §2 Floating-point numbers -/

/-- The exponent of a floating-point number: nothing, or `E` and a signed run of digits. -/
def isExponent : List Char → Bool
  | [] => true
  | c :: rest =>
    (c = 'e' || c = 'E') && (digitRun? Char.isDigit (Numeral.splitSign rest).2).isSome

/-- A character that may stand in a run of digits. -/
def isRunChar (c : Char) : Bool := c.isDigit || c = '_'

/-- The form of a floating-point number: a fraction or an exponent must be there. -/
def isReal (cs : List Char) : Bool :=
  let body := (Numeral.splitSign cs).2
  if body = "inf".toList || body = "nan".toList then true
  else
    (plainRun? (body.takeWhile isRunChar)).isSome
      && match body.dropWhile isRunChar with
        | [] => false
        | '.' :: rest =>
          (digitRun? Char.isDigit (rest.takeWhile isRunChar)).isSome
            && isExponent (rest.dropWhile isRunChar)
        | rest => isExponent rest

/-- The floating-point number of that form. It is infinite if it is too large or was written so. -/
def real? (cs : List Char) : Option Double :=
  if isReal cs then Binary.ofChars? (cs.filter (· ≠ '_')) else none

/-! ## §3 Dates and times -/

/-- A run of exactly `count` decimal digits at the front, and the rest. -/
def fixedDigits? (count : Nat) (cs : List Char) : Option (Int × List Char) :=
  let digits := cs.take count
  if digits.length = count ∧ digits.all Char.isDigit then
    some (Nat.ofDigitChars 10 digits 0, cs.drop count)
  else
    none

/-- The given character at the front taken off. -/
def skip? (c : Char) : List Char → Option (List Char)
  | [] => none
  | d :: rest => if d = c then some rest else none

/-- A date at the front, and the rest. -/
def afterDate? (cs : List Char) : Option (List Char) := do
  let (year, cs) ← fixedDigits? 4 cs
  let (month, cs) ← fixedDigits? 2 (← skip? '-' cs)
  let (day, cs) ← fixedDigits? 2 (← skip? '-' cs)
  if CivilDate.Valid ⟨year, month, day⟩ then return cs else none

/-- Hours and minutes at the front, within limits, and the rest. -/
def afterHourMinute? (cs : List Char) : Option (List Char) := do
  let (hour, cs) ← fixedDigits? 2 cs
  let (minute, cs) ← fixedDigits? 2 (← skip? ':' cs)
  if hour ≤ 23 ∧ minute ≤ 59 then return cs else none

/-- The fraction of a second at the front taken off, if there is one. -/
def afterFraction? : List Char → Option (List Char)
  | '.' :: rest =>
    if (rest.takeWhile Char.isDigit).isEmpty then none else some (rest.dropWhile Char.isDigit)
  | cs => some cs

/-- A time of day at the front, and the rest. Seconds may be left out. -/
def afterTime? (cs : List Char) : Option (List Char) := do
  let cs ← afterHourMinute? cs
  match cs with
  | ':' :: cs =>
    let (second, cs) ← fixedDigits? 2 cs
    if second ≤ 60 then afterFraction? cs else none
  | cs => return cs

/-- An offset from universal time, or nothing. -/
def isOffset : List Char → Bool
  | [] => true
  | ['Z'] | ['z'] => true
  | '+' :: rest | '-' :: rest => afterHourMinute? rest = some []
  | _ => false

/-- A date, a time of day, or both with an optional offset. -/
def isMoment (cs : List Char) : Bool :=
  match afterDate? cs with
  | some [] => true
  | some (c :: rest) =>
    (c = 'T' || c = 't' || c = ' ') && (afterTime? rest).any isOffset
  | none => afterTime? cs = some []

end Plc.Toml
