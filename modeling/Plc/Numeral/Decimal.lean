import Plc.Instances
import Plc.Numeral.Integer

/-!
# Decimal fractions in text

A decimal is a whole significand and a power of ten. It is read from digits with an optional point
and an optional exponent, and written positionally, never with an exponent.
-/

namespace Plc

/-- The number `significand * 10 ^ exponent`. -/
structure Decimal where
  significand : Nat
  exponent : Int
  deriving DecidableEq, Repr

namespace Decimal

/-! ## §1 Reading -/

/-- The digits before the point, the digits after it, and what follows them. -/
def splitPoint (cs : List Char) : List Char × List Char × List Char :=
  let whole := cs.takeWhile Char.isDigit
  match cs.dropWhile Char.isDigit with
  | '.' :: rest => (whole, rest.takeWhile Char.isDigit, rest.dropWhile Char.isDigit)
  | rest => (whole, [], rest)

/-- The exponent at the end of a decimal: nothing, or `E` and a signed integer. -/
def trailingExponent? : List Char → Option Int
  | [] => some 0
  | c :: rest => if c = 'e' ∨ c = 'E' then Numeral.integer? rest else none

/-- An unsigned decimal. The point may come first or last, but some digit must be there. -/
def ofChars? (cs : List Char) : Option Decimal :=
  let (whole, fraction, rest) := splitPoint cs
  if whole.isEmpty && fraction.isEmpty then none
  else
    (trailingExponent? rest).map fun e =>
      ⟨Nat.ofDigitChars 10 (whole ++ fraction) 0, e - fraction.length⟩

/-! ## §2 Writing -/

/-- The digits after the point of `n / 10 ^ places`, without zeros at their end. -/
def fractionDigits (places n : Nat) : List Char :=
  let digits := Nat.toDigits 10 (n % 10 ^ places)
  let padded := List.replicate (places - digits.length) '0' ++ digits
  (padded.reverse.dropWhile (· = '0')).reverse

/-- All digits in their places: zeros fill up to the point, and a fraction of zeros is left out. -/
def positional (d : Decimal) : List Char :=
  match d.exponent with
  | .ofNat e => Nat.toDigits 10 (d.significand * 10 ^ e)
  | .negSucc e =>
    let whole := Nat.toDigits 10 (d.significand / 10 ^ (e + 1))
    match fractionDigits (e + 1) d.significand with
    | [] => whole
    | fraction => whole ++ '.' :: fraction

end Decimal

end Plc
