import Plc.Binary.Elementary
import Plc.Operator.Basic

/-!
# Numeric operators

Sums, products, differences, quotients, remainders and powers, and the functions of one or two real
operands. The result is made ready for the higher-ranked operand type before the number is stored, so
storing narrows to whichever type the result then has.
-/

namespace Plc

/-- What EXPT computes. -/
inductive PowerMode where
  /-- The first operand raised to the second. -/
  | power
  /-- The exclusive or of both integer readings. -/
  | legacyXor
  deriving DecidableEq, Inhabited, Repr

/-- The power of two numbers, or what the mode puts in its place. -/
def PowerMode.apply : PowerMode → Number → Number → Double
  | power, a, b => a.toDouble.pow b.toDouble
  | legacyXor, a, b => .ofInt (a.toWide ^^^ b.toWide).toInt

namespace Operator

/-! ## §1 Sums and products -/

/-- Takes one more operand into an accumulated result, which is first promoted to its type. -/
def accumulate (combine : Number → Number → Number) (acc operand : Value) : Value :=
  let wide := acc.promote operand.type
  wide.setNumber (combine wide.number operand.number)

/-- Combines all operands from the first popped one on, which gives the flags and the first type. -/
def fold (combine : Number → Number → Number) : Call := do
  match ← Call.drainChecked [.magnitude] with
  | [] => throw .nullParameter
  | first :: rest =>
    Call.onResult do
      set first
      rest.forM fun operand => modify (accumulate combine · operand)

def add : Call := fold (· + ·)

def mul : Call := fold (· * ·)

/-! ## §2 Differences, quotients, remainders and powers -/

def sub (a b : Value) : Action := do
  a.require [.magnitude]
  b.require [.magnitude]
  modify (·.widenTo (a.type.wider b.type))
  modify (·.setNumber (a.number - b.number))

/-- The quotient. It is a quotient of reals if the result, once widened, is a real. -/
def div (a b : Value) : Action := do
  a.require [.magnitude, .num]
  b.require [.magnitude, .num]
  Fault.notAllowedType.when b.number.isZero
  modify (·.widenTo (a.type.wider b.type))
  let wide ← get
  let quotient :=
    if wide.belongsAny [.real] then a.number.toReal / b.number.toReal else a.number / b.number
  modify (·.setNumber quotient)

/-- The remainder of integers; a zero divisor gives zero. -/
def mod (a b : Value) : Action := do
  a.require [.int]
  b.require [.int]
  modify (·.widenTo (a.type.wider b.type))
  modify (·.setNumber (a.number % b.number))

/-- The power in LREAL. -/
def expt (mode : PowerMode) (a b : Value) : Action := do
  a.require [.num]
  b.require [.num]
  modify (·.widenTo .lreal)
  modify (·.setNumber (.real (mode.apply a.number b.number)))

/-! ## §3 Functions of one or two operands -/

/-- The magnitude, at the operand's type. -/
def abs (a : Value) : Action := do
  a.require [.magnitude]
  modify (·.widenTo a.type)
  modify (·.setNumber a.number.abs)

/-- A function of one real operand, at its type. -/
def ofReal (g : Double → Double) (a : Value) : Action := do
  a.require [.real]
  modify (·.widenTo a.type)
  modify (·.setNumber (.real (g a.toDouble)))

/-- The angle of the point with the given ordinate and abscissa. -/
def atan2 (y x : Value) : Action := do
  y.require [.real]
  x.require [.real]
  modify (·.widenTo (y.type.wider x.type))
  modify (·.setNumber (.real (y.toDouble.atan2 x.toDouble)))

end Operator

end Plc
