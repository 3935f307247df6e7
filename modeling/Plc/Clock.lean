import Plc.Duration

/-!
# Clocks

The clock that timers read is set and advanced by hand. The reading that is kept wraps at 64 bits,
while the reading that an advance reports is held at the limits.
-/

namespace Plc

/-- The granularity of a clock. -/
inductive ClockResolution where
  | millis | micros
  deriving DecidableEq, Inhabited, Repr

/-- The length of one step of a clock. -/
def ClockResolution.toDuration : ClockResolution → Duration
  | millis => .ofMillis 1
  | micros => .ofMicros 1

/-- A clock that only moves when told to. -/
structure ManualClock where
  reading : Duration := .zero
  deriving DecidableEq

namespace ManualClock

/-- The clock after a step. -/
def advance (clock : ManualClock) (step : Duration) : ManualClock :=
  ⟨.wrap (clock.reading.nanos + step.nanos)⟩

/-- The reading that a step reports. -/
def reported (clock : ManualClock) (step : Duration) : Duration := clock.reading + step

/-- The clock set to a time. -/
def setTime (_clock : ManualClock) (time : Duration) : ManualClock := ⟨time⟩

end ManualClock

end Plc
