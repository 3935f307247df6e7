import Plc.Binary.Basic

/-!
# Elementary functions on LREAL

Roots, logarithms, powers and the trigonometric functions are those of the machine. A value crosses
over as its bit pattern, so nothing is rounded on the way.
-/

namespace Plc

namespace Binary

/-- The machine's number with the same bit pattern. -/
def toFloat (x : Double) : Float := Float.ofBits (UInt64.ofNat x.toBits)

/-- The value with the bit pattern of a machine number. -/
def ofFloat (x : Float) : Double := ofBits x.toBits.toNat

/-- A function of one machine number, on values. -/
def machine (g : Float → Float) (x : Double) : Double := ofFloat (g x.toFloat)

/-- A function of two machine numbers, on values. -/
def machine₂ (g : Float → Float → Float) (x y : Double) : Double :=
  ofFloat (g x.toFloat y.toFloat)

/-- The square root. -/
def sqrt : Double → Double := machine Float.sqrt

/-- The natural logarithm. -/
def ln : Double → Double := machine Float.log

/-- The logarithm to base ten. -/
def log10 : Double → Double := machine Float.log10

/-- The exponential function. -/
def exp : Double → Double := machine Float.exp

/-- The sine of an angle in radians. -/
def sin : Double → Double := machine Float.sin

/-- The cosine of an angle in radians. -/
def cos : Double → Double := machine Float.cos

/-- The tangent of an angle in radians. -/
def tan : Double → Double := machine Float.tan

/-- The angle with the given sine. -/
def asin : Double → Double := machine Float.asin

/-- The angle with the given cosine. -/
def acos : Double → Double := machine Float.acos

/-- The angle with the given tangent. -/
def atan : Double → Double := machine Float.atan

/-- The angle of the point with the given ordinate and abscissa. -/
def atan2 : Double → Double → Double := machine₂ Float.atan2

/-- The first value raised to the second. -/
def pow : Double → Double → Double := machine₂ Float.pow

end Binary

end Plc
