import Plc.Binary.Arithmetic

/-!
# Numbers

The common form in which operators see a numeric operand: an integer, or an LREAL value. Integers
are words of 128 bits, wide enough for every integer type; what leaves that range wraps. An operation
on two integers is an integer operation, any other one works on LREAL values.
-/

namespace Plc

/-- A word wide enough for every integer type. -/
abbrev Wide := BitVec 128

/-- The numeric view of a value. -/
inductive Number where
  | int (n : Wide)
  | real (x : Double)
  deriving DecidableEq

namespace Number

/-! ## §1 Views -/

/-- The integer `n`, reduced to the range of wide words. -/
def ofInt (n : Int) : Number := int (BitVec.ofInt 128 n)

/-- One for true, zero for false. -/
def ofBool (on : Bool) : Number := int (if on then 1 else 0)

instance : Inhabited Number := ⟨int 0⟩

/-- The nearest LREAL value. -/
def toDouble : Number → Double
  | int n => Binary.ofInt n.toInt
  | real x => x

/-- The integer reading: a real is truncated toward zero and held in range. -/
def toWide : Number → Wide
  | int n => n
  | real x => BitVec.ofInt 128 (x.truncate (-2 ^ 127) (2 ^ 127 - 1))

/-- The number equals zero. -/
def isZero : Number → Bool
  | int n => n == 0
  | real x => x.isZero

/-- The number is kept as an LREAL value. -/
def isReal : Number → Bool
  | int _ => false
  | real _ => true

/-- The same number as an LREAL value. -/
def toReal (a : Number) : Number := real a.toDouble

/-! ## §2 Arithmetic -/

/-- The magnitude. The least integer has none and stays. -/
def abs : Number → Number
  | int n => int n.abs
  | real x => real x.abs

def add : Number → Number → Number
  | int a, int b => int (a + b)
  | a, b => real (a.toDouble + b.toDouble)

def sub : Number → Number → Number
  | int a, int b => int (a - b)
  | a, b => real (a.toDouble - b.toDouble)

def mul : Number → Number → Number
  | int a, int b => int (a * b)
  | a, b => real (a.toDouble * b.toDouble)

/-- The quotient. Integers divide toward zero, and a zero divisor among integers gives zero. -/
def div : Number → Number → Number
  | int a, int b => if b = 0 then int 0 else int (a.sdiv b)
  | a, b => real (a.toDouble / b.toDouble)

/-- The remainder, under the sign of the dividend. A zero divisor gives zero. -/
def rem : Number → Number → Number
  | int a, int b => if b = 0 then int 0 else int (a.srem b)
  | a, b => real (if b.isZero then .zero false else a.toDouble % b.toDouble)

instance : Add Number := ⟨add⟩
instance : Sub Number := ⟨sub⟩
instance : Mul Number := ⟨mul⟩
instance : Div Number := ⟨div⟩
instance : Mod Number := ⟨rem⟩

/-! ## §3 Order -/

/-- Compares two numbers, integers exactly and any other pair as LREAL values. There is no answer
when one is not-a-number. -/
def compare? : Number → Number → Option Ordering
  | int a, int b => some (compare a.toInt b.toInt)
  | a, b => a.toDouble.compare? b.toDouble

end Number

end Plc
