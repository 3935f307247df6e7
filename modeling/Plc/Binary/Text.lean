import Plc.Binary.Arithmetic
import Plc.Numeral.Decimal

/-!
# Decimal text of binary floating-point values

Reading rounds the exact decimal once. Writing uses the fewest significant digits that read back to
the same value, and of those the ones nearest to it; a tie goes up. The text is positional whatever
the size of the value.
-/

namespace Plc

namespace Binary

variable {f : Format}

/-! ## §1 Reading -/

/-- The value nearest to a signed decimal. Exponents far outside the format are settled without
computing the power of ten. -/
def ofDecimal (negative : Bool) (d : Decimal) : Binary f :=
  if d.significand = 0 then zero negative
  else if d.exponent > f.span then infinite negative
  else if d.exponent < -((d.significand.log2 + f.scale + 2 : Nat) : Int) then zero negative
  else
    match d.exponent with
    | .ofNat e => ofRatio negative (d.significand * 10 ^ e * 2 ^ f.scale) 1
    | .negSucc e => ofRatio negative (d.significand * 2 ^ f.scale) (10 ^ (e + 1))

/-- A value in text: an optional sign, then a decimal, `inf`, `infinity` or `nan` in any case. -/
def ofChars? (cs : List Char) : Option (Binary f) :=
  let (negative, body) := Numeral.splitSign cs
  match Decimal.ofChars? body with
  | some d => some (ofDecimal negative d)
  | none =>
    match String.ofList (body.map Char.toLower) with
    | "inf" => some (infinite negative)
    | "infinity" => some (infinite negative)
    | "nan" => some nan
    | _ => none

/-! ## §2 Writing -/

/-- The first decimal that reads back to `x`, among `expansion` cut after ever more digits and the
neighbour of each cut. Nothing is cut at the end, where `expansion` itself is taken. -/
def cutDigits (x : Binary f) (expansion : Nat) (exponent : Int) : Nat → Decimal
  | 0 => ⟨expansion, exponent⟩
  | drop + 1 =>
    let unit := 10 ^ (drop + 1)
    let below := expansion / unit
    let nearestFirst :=
      if 2 * (expansion % unit) < unit then [below, below + 1] else [below + 1, below]
    let at? (c : Nat) : Decimal := ⟨c, exponent + (drop + 1 : Nat)⟩
    match nearestFirst.find? fun c => ofDecimal false (at? c) = x with
    | some c => at? c
    | none => cutDigits x expansion exponent drop

/-- The shortest decimal that reads back to a positive magnitude. A quantum is `5 ^ scale` units of
the decimal place `-scale`, so every magnitude has a finite expansion to start from. -/
def shortest (units : Nat) (fits : f.Fits units) : Decimal :=
  let expansion := units * 5 ^ f.scale
  cutDigits (finite false units fits) expansion (-f.scale)
    ((Nat.toDigits 10 expansion).length - 1)

/-- The decimal text of a value. -/
def toChars : Binary f → List Char
  | nan => ['N', 'a', 'N']
  | infinite negative => (if negative then ['-'] else []) ++ ['i', 'n', 'f']
  | finite negative units fits =>
    (if negative then ['-'] else [])
      ++ if units = 0 then ['0'] else (shortest units fits).positional

end Binary

end Plc
