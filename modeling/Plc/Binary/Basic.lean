import Plc.Binary.Format

/-!
# Binary floating-point values

A value is not-a-number, an infinity, or a sign with a magnitude that the format holds. There is one
not-a-number, so equality of values is equality of bit patterns; zero keeps its sign.

`Binary.ofRatio` is the only way by which arithmetic makes a value: it rounds an exact quotient once.
`Binary.toBits` and `Binary.ofBits` read and write the interchange encoding.
-/

namespace Plc

/-- A value of the format `f`. A finite magnitude counts quanta of the format. -/
inductive Binary (f : Format) where
  | nan
  | infinite (negative : Bool)
  | finite (negative : Bool) (units : Nat) (fits : f.Fits units)
  deriving DecidableEq

/-- The contents of REAL. -/
abbrev Single := Binary .single

/-- The contents of LREAL. -/
abbrev Double := Binary .double

namespace Binary

variable {f : Format}

/-! ## §1 Making values -/

/-- Zero with the given sign. -/
def zero (negative : Bool) : Binary f := .finite negative 0 f.fits_zero

instance : Inhabited (Binary f) := ⟨zero false⟩

/-- The value nearest to `num / den` quanta under the given sign, infinite on overflow. -/
def ofRatio (negative : Bool) (num den : Nat) : Binary f :=
  if fits : f.round num den < 2 ^ f.span then
    .finite negative (f.round num den) ⟨f.aligned_round num den, fits⟩
  else
    .infinite negative

/-- The value nearest to a signed quotient of quanta; an exact zero is positive. -/
def ofSignedRatio (num : Int) (den : Nat) : Binary f :=
  ofRatio (decide (num < 0)) num.natAbs den

/-- The value nearest to an integer. -/
def ofInt (n : Int) : Binary f := ofSignedRatio (n * 2 ^ f.scale) 1

/-- The value of another format nearest to this one. -/
def convert {g : Format} : Binary f → Binary g
  | nan => nan
  | infinite negative => infinite negative
  | finite negative units _ => ofRatio negative (units * 2 ^ g.scale) (2 ^ f.scale)

/-! ## §2 Classes of values -/

/-- The value is not-a-number. -/
def isNaN : Binary f → Bool
  | nan => true
  | _ => false

/-- The value is a zero of either sign. -/
def isZero : Binary f → Bool
  | finite _ units _ => units == 0
  | _ => false

/-! ## §3 The interchange encoding -/

/-- The encoded magnitude of an infinity. -/
def infinityBits (f : Format) : Nat := (f.span - f.precision + 2) * 2 ^ (f.precision - 1)

/-- The weight of the sign bit. -/
def signWeight (f : Format) : Nat := infinityBits f + 2 ^ (f.precision - 1)

/-- The bit pattern of a value: sign, biased exponent, and the significand without its leading bit.
Not-a-number is the quiet pattern with a clear sign. -/
def toBits : Binary f → Nat
  | nan => infinityBits f + 2 ^ (f.precision - 2)
  | infinite negative => negative.toNat * signWeight f + infinityBits f
  | finite negative units _ =>
    negative.toNat * signWeight f + f.excess units * 2 ^ (f.precision - 1)
      + units / 2 ^ f.excess units

/-- The value that a bit pattern encodes; every not-a-number pattern gives the one value. -/
def ofBits (bits : Nat) : Binary f :=
  let negative := bits / signWeight f % 2 == 1
  let magnitude := bits % signWeight f
  if magnitude < infinityBits f then
    let excess := magnitude / 2 ^ (f.precision - 1) - 1
    ofRatio negative ((magnitude - excess * 2 ^ (f.precision - 1)) * 2 ^ excess) 1
  else if magnitude = infinityBits f then
    infinite negative
  else
    nan

end Binary

end Plc
