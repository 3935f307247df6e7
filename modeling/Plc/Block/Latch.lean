import Plc.Operator.Basic

/-!
# Bistable blocks and edge detectors

The output of these blocks is also their memory: it is kept as a BOOL with the attribute MAINTAIN,
and an edge detector keeps the previous sample in a state flag of it.
-/

namespace Plc

namespace Block

/-- Turns the output to a maintained BOOL and gives its truth value. -/
def latch : Program Value Bool := do
  modify (·.retype .bool)
  modify (·.setAttribute .maintain true)
  return (← get).isTrue

/-! ## §1 Bistables -/

/-- The set input dominates. -/
def sr (input reset : Value) : Action := do
  input.requireType .bool
  reset.requireType .bool
  let on ← latch
  modify (·.setBool (input.isTrue || (on && !reset.isTrue)))

/-- The reset input dominates. -/
def rs (input reset : Value) : Action := do
  input.requireType .bool
  reset.requireType .bool
  let on ← latch
  modify (·.setBool ((on || input.isTrue) && !reset.isTrue))

/-! ## §2 Edge detectors -/

/-- Tells whether the sample is true and the one before was not, and keeps the sample. -/
def detect (sample : Bool) : Action := do
  let _ ← latch
  let before := (← get).state.flag1
  modify (·.setBool (sample && !before))
  modify (·.setState .flag1 sample)

/-- True for the one call on which the clock input turns true. -/
def rTrig (clk : Value) : Action := do
  clk.requireType .bool
  detect clk.isTrue

/-- True for the one call on which the clock input turns false; a false first sample counts. -/
def fTrig (clk : Value) : Action := do
  clk.requireType .bool
  detect (!clk.isTrue)

end Block

end Plc
