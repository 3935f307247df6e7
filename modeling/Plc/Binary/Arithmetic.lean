import Plc.Binary.Basic

/-!
# Arithmetic and order of binary floating-point values

Each operation computes an exact quotient of quanta and rounds it once, so the sum, difference,
product and quotient are the values nearest to the exact results. The remainder is exact. Order is
the order of one integer per value, its `rank`, on which not-a-number has no place.
-/

namespace Plc

namespace Binary

variable {f : Format}

/-! ## §1 Signs -/

/-- The value with the opposite sign. -/
def negate : Binary f → Binary f
  | nan => nan
  | infinite negative => infinite (!negative)
  | finite negative units fits => finite (!negative) units fits

/-- The value with its sign cleared. -/
def abs : Binary f → Binary f
  | nan => nan
  | infinite _ => infinite false
  | finite _ units fits => finite false units fits

/-- A magnitude under a sign, as an integer count of quanta. -/
def signed (negative : Bool) (units : Nat) : Int := if negative then -(units : Int) else units

/-! ## §2 The four operations and the remainder -/

/-- The sum. Two zeros of one sign keep it; any other exact zero is positive. -/
def add : Binary f → Binary f → Binary f
  | nan, _ => nan
  | _, nan => nan
  | infinite a, infinite b => if a = b then infinite a else nan
  | infinite a, finite .. => infinite a
  | finite .., infinite b => infinite b
  | finite a m _, finite b n _ =>
    let sum := signed a m + signed b n
    if sum = 0 then zero (a && b) else ofSignedRatio sum 1

/-- The difference. -/
def sub (x y : Binary f) : Binary f := add x y.negate

/-- The product. An infinity times a zero is not-a-number. -/
def mul : Binary f → Binary f → Binary f
  | nan, _ => nan
  | _, nan => nan
  | infinite a, infinite b => infinite (a != b)
  | infinite a, finite b n _ => if n = 0 then nan else infinite (a != b)
  | finite a m _, infinite b => if m = 0 then nan else infinite (a != b)
  | finite a m _, finite b n _ => ofRatio (a != b) (m * n) (2 ^ f.scale)

/-- The quotient. A zero divisor gives an infinity, or not-a-number for a zero dividend. -/
def div : Binary f → Binary f → Binary f
  | nan, _ => nan
  | _, nan => nan
  | infinite _, infinite _ => nan
  | infinite a, finite b _ _ => infinite (a != b)
  | finite a _ _, infinite b => zero (a != b)
  | finite a m _, finite b n _ =>
    if n = 0 then
      if m = 0 then nan else infinite (a != b)
    else
      ofRatio (a != b) (m * 2 ^ f.scale) n

/-- The remainder of truncated division, under the sign of the dividend. -/
def rem : Binary f → Binary f → Binary f
  | nan, _ => nan
  | _, nan => nan
  | infinite _, _ => nan
  | finite a m fits, infinite _ => finite a m fits
  | finite a m _, finite _ n _ => if n = 0 then nan else ofRatio a (m % n) 1

instance : Neg (Binary f) := ⟨negate⟩
instance : Add (Binary f) := ⟨add⟩
instance : Sub (Binary f) := ⟨sub⟩
instance : Mul (Binary f) := ⟨mul⟩
instance : Div (Binary f) := ⟨div⟩
instance : Mod (Binary f) := ⟨rem⟩

/-! ## §3 Order -/

/-- The place of a value among the integers: its signed quanta, an infinity lying beyond every
finite value. Both zeros have one place; not-a-number has none. -/
def rank : Binary f → Option Int
  | nan => none
  | infinite negative => some (signed negative (2 ^ f.span))
  | finite negative units _ => some (signed negative units)

/-- Compares two values by rank; `none` when one is not-a-number. -/
def compare? (x y : Binary f) : Option Ordering :=
  match x.rank, y.rank with
  | some m, some n => some (compare m n)
  | _, _ => none

/-! ## §4 Integers -/

/-- The integer next to the value toward zero. Infinities go to the nearer of two limits, as does
whatever lies beyond them; not-a-number gives zero. -/
def truncate (low high : Int) : Binary f → Int
  | nan => 0
  | infinite negative => if negative then low else high
  | finite negative units _ => max low (min high (signed negative (units / 2 ^ f.scale)))

/-- The integer nearest to a finite value, a half going away from zero. -/
def nearestInt? : Binary f → Option Int
  | finite negative units _ =>
    some (signed negative ((2 * units + 2 ^ f.scale) / (2 * 2 ^ f.scale)))
  | _ => none

end Binary

end Plc
