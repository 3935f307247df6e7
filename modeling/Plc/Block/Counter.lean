import Plc.Operator.Basic

/-!
# Counters

The counting input is an edge that has already been detected. The count stops at the preset on the
way up and at zero on the way down, so it never wraps.
-/

namespace Plc

/-- The two containers that a counter writes to: the output and the count. -/
structure CounterOutputs where
  q : Value
  cv : Value

namespace Block

/-- The types that the inputs and the count of a counter must have. -/
def requireCounter (edge control preset cv : Value) : Status := do
  edge.requireType .rEdge
  control.requireType .bool
  preset.requireType .int
  cv.requireType .int

/-- One call of a counter: from the count comes the next one, and from that the output. -/
def count (edge control preset : Value) (next : Value → Value) (reached : Value → Bool) :
    Program CounterOutputs Unit := do
  requireCounter edge control preset (← get).cv
  modify fun out => { out with q := out.q.retype .bool }
  modify fun out => { out with cv := next out.cv }
  modify fun out => { out with q := out.q.setBool (reached out.cv) }

/-- The count of CTU after a call. -/
def countUp (edge reset preset cv : Value) : Value :=
  if reset.isTrue then cv.setNumber (.ofInt 0)
  else if edge.isTrue && cv.toLint < preset.toLint then cv.setNumber (.ofInt (cv.toLint + 1))
  else cv

/-- The count of CTD after a call. -/
def countDown (edge load preset cv : Value) : Value :=
  if load.isTrue then cv.setNumber preset.number
  else if edge.isTrue && 0 < cv.toLint then cv.setNumber (.ofInt (cv.toLint - 1))
  else cv

/-- Counts up; the output tells whether the preset is reached. -/
def ctu (edge reset preset : Value) : Program CounterOutputs Unit :=
  count edge reset preset (countUp edge reset preset) fun cv => preset.toLint ≤ cv.toLint

/-- Counts down; the output tells whether zero is reached. -/
def ctd (edge load preset : Value) : Program CounterOutputs Unit :=
  count edge load preset (countDown edge load preset) fun cv => cv.toLint ≤ 0

end Block

end Plc
