import Plc.Operator.Basic

/-!
# Operators on TIME

Sums and differences of durations, and their product and quotient with a number. The exact result is
held at the limits of a duration.
-/

namespace Plc

/-- The duration of an operand that must be of type TIME. -/
def Value.requireDuration (v : Value) : Except Fault Duration := do
  v.requireType .time
  Fault.notAllowedType.ifNone v.duration?

namespace Operator

def addTime (a b : Value) : Action := do
  let d ← a.requireDuration
  let e ← b.requireDuration
  modify (·.setDuration (d + e))

def subTime (a b : Value) : Action := do
  let d ← a.requireDuration
  let e ← b.requireDuration
  modify (·.setDuration (d - e))

/-- The duration with as many nanoseconds as the integer part of a real, held at the limits. -/
def wholeNanos (x : Double) : Duration := .saturate (x.truncate (-2 ^ 63) (2 ^ 63 - 1))

/-- A duration times a number. -/
def scaled (d : Duration) : Number → Duration
  | .int k => .saturate (d.nanos * k.toInt)
  | .real x => wholeNanos (.ofInt d.nanos * x)

/-- A duration by a number, toward zero. -/
def divided (d : Duration) : Number → Duration
  | .int k => .saturate (d.nanos.tdiv k.toInt)
  | .real x => wholeNanos (.ofInt d.nanos / x)

def mulTime (t factor : Value) : Action := do
  let d ← t.requireDuration
  factor.require [.num]
  modify (·.setDuration (scaled d factor.number))

/-- A zero divisor is refused. -/
def divTime (t divisor : Value) : Action := do
  let d ← t.requireDuration
  divisor.require [.num]
  Fault.notAllowedType.when divisor.number.isZero
  modify (·.setDuration (divided d divisor.number))

end Operator

end Plc
