import Plc.Operator.Basic

/-!
# Timers

Pulse, on-delay and off-delay timers. Each is a step of the timer state at a reading of the clock;
around the step, a block checks the types of its arguments, sets a new timer up, takes over the
preset and hands the elapsed time out.
-/

namespace Plc

namespace TimerState

/-- A timer at rest with a preset. -/
def armed (preset : Duration) : TimerState := { preset := preset }

/-- The time since the start, up to the preset. -/
def sinceStart (s : TimerState) (now : Duration) : Duration := (now - s.start).least s.preset

/-- Takes the starting instant, unless the timer is running. -/
def begin (s : TimerState) (now : Duration) : TimerState :=
  if s.running then s else { s with running := true, start := now }

/-! ## §1 Steps -/

/-- The start of a pulse, on a true input to a timer at rest. -/
def pulseStart (s : TimerState) (input : Bool) (now : Duration) : TimerState :=
  if input && !s.running && s.elapsed.nanos = 0 then { s with running := true, start := now } else s

/-- The course of a pulse: time passes until the preset. -/
def pulseAdvance (s : TimerState) (now : Duration) : TimerState :=
  if s.running then
    let elapsed := s.sinceStart now
    { s with elapsed := elapsed, running := decide (elapsed.nanos < s.preset.nanos) }
  else s

/-- The output of a pulse and its end: the elapsed time of a finished pulse is kept until the input
drops. -/
def pulseFinish (s : TimerState) (input : Bool) : TimerState :=
  -- The output looks at the elapsed time before it is cleared.
  let s := { s with
    output := s.running && 0 < s.elapsed.nanos && s.elapsed.nanos < s.preset.nanos }
  if !input && !s.running && s.elapsed.nanos ≠ 0 then
    { s with elapsed := .zero, start := .zero }
  else s

/-- A pulse of the length of the preset, whatever the input does meanwhile. -/
def pulse (s : TimerState) (input : Bool) (now : Duration) : TimerState :=
  ((s.pulseStart input now).pulseAdvance now).pulseFinish input

/-- The output turns true once the input has been true for the length of the preset. -/
def onDelay (s : TimerState) (input : Bool) (now : Duration) : TimerState :=
  if input then
    let s := s.begin now
    let elapsed := s.sinceStart now
    { s with elapsed := elapsed, output := decide (s.preset.nanos ≤ elapsed.nanos) }
  else armed s.preset

/-- The output turns true with the input and false once the input has been false for the length of
the preset. -/
def offDelay (s : TimerState) (input : Bool) (now : Duration) : TimerState :=
  if input then
    { s with output := true, elapsed := .zero, start := .zero, running := false }
  else if s.output then
    let s := s.begin now
    let elapsed := s.sinceStart now
    if s.preset.nanos ≤ elapsed.nanos then
      { s with elapsed := elapsed, output := false, running := false }
    else
      { s with elapsed := elapsed }
  else s

end TimerState

/-! ## §2 Blocks -/

/-- The containers that a timer block writes to: the timer itself and, if it is wanted, the elapsed
time. -/
structure TimerOutputs where
  timer : Value
  elapsed : Option Value

namespace Block

/-- The types that the arguments of a timer block must have. -/
def requireTimer (timer input preset : Value) (elapsed : Option Value) : Status := do
  input.requireType .bool
  preset.requireType .time
  timer.requireType .timer
  if let some elapsed := elapsed then elapsed.requireType .time

/-- Checks the arguments and gives the state from which a step starts: on the first call a timer at
rest, and always with the current preset. -/
def prepare (input preset : Value) : Program TimerOutputs TimerState := do
  let out ← get
  requireTimer out.timer input preset out.elapsed
  modify fun out => { out with timer := out.timer.setState .initialized true }
  let state ← Fault.notAllowedType.ifNone out.timer.timer?
  let preset := preset.duration?.getD .zero
  let state := if out.timer.state.initialized then state else .armed preset
  return { state with preset := preset }

/-- Keeps the state that a step ends in and hands its elapsed time out. -/
def publish (state : TimerState) : Program TimerOutputs Unit := do
  modify fun out => { out with timer := out.timer.setTimer state }
  modify fun out => { out with elapsed := out.elapsed.map (·.setDuration state.elapsed) }

/-- Runs one step of a timer as a block. -/
def runTimer (step : TimerState → Bool → Duration → TimerState) (input preset : Value)
    (now : Duration) : Program TimerOutputs Unit := do
  let state ← prepare input preset
  publish (step state input.isTrue now)

def tp := runTimer TimerState.pulse

def ton := runTimer TimerState.onDelay

def tof := runTimer TimerState.offDelay

end Block

end Plc
