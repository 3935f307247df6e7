import Plc.Block.Timer

/-!
# Runs of timer blocks

A timer block is called again and again on one timer, each time with arguments of the caller's choice
and a new reading of the clock. The run of the containers is followed by a run of plain timer states,
on which the laws of the timers are shown.

Main statements:

* `TimerCall.run_eq`: a valid call succeeds, and does to the timer and the elapsed time what the step
  does to the state.
* `tracks_timerBefore`: so does a whole run of valid calls from a fresh timer on.
* `timerState_succ`, `status_timerBefore`, `handed_timerBefore`: the same told of each call of a run.
* `Spell.unique`: the input of a run falls into spells, in each of which it does not change.
-/

namespace Plc

/-- The arguments of one call of a timer block. -/
structure TimerCall where
  input : Value
  preset : Value
  /-- The container for the elapsed time, if it is wanted. -/
  elapsed : Option Value
  now : Duration

/-- What a timer block does with its arguments. -/
abbrev TimerBlock := Value → Value → Duration → Program TimerOutputs Unit

namespace TimerCall

/-- All arguments are of the types that timer blocks demand. -/
structure Valid (call : TimerCall) : Prop where
  input : call.input.type = .bool
  preset : call.preset.type = .time
  elapsed : ∀ v, call.elapsed = some v → v.type = .time

/-- The sample of the input. -/
def on (call : TimerCall) : Bool := call.input.isTrue

/-- The length that the preset asks for. -/
def pt (call : TimerCall) : Duration := call.preset.duration?.getD .zero

/-- How the call of a block on a timer ends. -/
def status (call : TimerCall) (block : TimerBlock) (timer : Value) : Status :=
  (block call.input call.preset call.now).status ⟨timer, call.elapsed⟩

/-- What the call of a block leaves in the containers. -/
def outputs (call : TimerCall) (block : TimerBlock) (timer : Value) : TimerOutputs :=
  (block call.input call.preset call.now).final ⟨timer, call.elapsed⟩

end TimerCall

/-- The timer before the call of number `i`, in a run that begins with a fresh one. -/
def timerBefore (block : TimerBlock) (calls : Nat → TimerCall) : Nat → Value
  | 0 => .zero .timer
  | i + 1 => ((calls i).outputs block (timerBefore block calls i)).timer

/-- The state with another preset. -/
def TimerState.withPreset (s : TimerState) (preset : Duration) : TimerState :=
  { s with preset := preset }

/-- The state before the call of number `i`. Each call takes the preset over before its step. -/
def stateBefore (step : TimerState → Bool → Duration → TimerState) (calls : Nat → TimerCall) :
    Nat → TimerState
  | 0 => {}
  | i + 1 => step ((stateBefore step calls i).withPreset (calls i).pt) (calls i).on (calls i).now

/-- The timer holds the state. A timer that no call has set up yet holds the initial one. -/
structure Value.Tracks (timer : Value) (state : TimerState) : Prop where
  type : timer.type = .timer
  timer? : timer.timer? = some state
  fresh : timer.state.initialized = false → state = {}

/-! ## §1 One call -/

namespace TimerCall

/-- The arguments of a valid call pass all checks. -/
theorem requireTimer_eq {call : TimerCall} (valid : call.Valid) {timer : Value}
    (type : timer.type = .timer) :
    Block.requireTimer timer call.input call.preset call.elapsed = .ok () := by
  have elapsed : ∀ v, call.elapsed = some v → v.requireType .time = .ok () := by
    intro v wanted
    exact if_pos (valid.elapsed v wanted)
  simp only [Block.requireTimer, Value.requireType, valid.input, valid.preset, type, if_true]
  cases wanted : call.elapsed with
  | none => rfl
  | some v => exact elapsed v wanted

variable {call : TimerCall} {timer : Value} {state : TimerState}

/-- The step starts from the state that the timer holds, with the preset of the call. A timer that has
not been set up is, and that is the same: its state is the initial one. -/
theorem prepare_eq (valid : call.Valid) (tracks : timer.Tracks state) :
    (Block.prepare call.input call.preset).run ⟨timer, call.elapsed⟩ =
      .ok (state.withPreset call.pt) ⟨timer.setState .initialized true, call.elapsed⟩ := by
  have found : Fault.notAllowedType.ifNone timer.timer? = .ok state := by
    rw [tracks.timer?]
    rfl
  unfold Block.prepare
  rw [EStateM.run_bind, EStateM.run_get]
  simp only [requireTimer_eq valid tracks.type, found]
  cases initialized : timer.state.initialized with
  | true => rfl
  | false =>
    -- A timer armed anew differs from the initial state in its preset only.
    obtain rfl := tracks.fresh initialized
    rfl

/-- A valid call succeeds: the timer holds what the step makes of its state, and the elapsed time is
handed out. -/
theorem run_eq (step : TimerState → Bool → Duration → TimerState) (valid : call.Valid)
    (tracks : timer.Tracks state) {after : TimerState}
    (stepped : step (state.withPreset call.pt) call.on call.now = after) :
    (Block.runTimer step call.input call.preset call.now).run ⟨timer, call.elapsed⟩ =
      .ok () ⟨(timer.setState .initialized true).setTimer after,
        call.elapsed.map (·.setDuration after.elapsed)⟩ := by
  unfold Block.runTimer
  rw [EStateM.run_bind, prepare_eq valid tracks, ← stepped]
  rfl

theorem status_eq (step : TimerState → Bool → Duration → TimerState) (valid : call.Valid)
    (tracks : timer.Tracks state) : call.status (Block.runTimer step) timer = .ok () := by
  unfold status Program.status
  rw [run_eq step valid tracks rfl]

theorem outputs_eq (step : TimerState → Bool → Duration → TimerState) (valid : call.Valid)
    (tracks : timer.Tracks state) {after : TimerState}
    (stepped : step (state.withPreset call.pt) call.on call.now = after) :
    call.outputs (Block.runTimer step) timer =
      ⟨(timer.setState .initialized true).setTimer after,
        call.elapsed.map (·.setDuration after.elapsed)⟩ := by
  unfold outputs Program.final
  rw [run_eq step valid tracks stepped]

/-- A timer keeps what is stored in it. -/
theorem tracks_setTimer (tracks : timer.Tracks state) (after : TimerState) :
    ((timer.setState .initialized true).setTimer after).Tracks after := by
  have found : (timer.setState .initialized true).timer? = some state := tracks.timer?
  unfold Value.setTimer
  rw [found]
  exact ⟨tracks.type, rfl, fun fresh => by cases fresh⟩

end TimerCall

/-! ## §2 Runs -/

theorem tracks_zero : (Value.zero .timer).Tracks {} := ⟨rfl, rfl, fun _ => rfl⟩

/-- Before each call the timer holds the state that the steps so far have led to. -/
theorem tracks_timerBefore (step : TimerState → Bool → Duration → TimerState)
    {calls : Nat → TimerCall} {n : Nat} (valid : ∀ i < n, (calls i).Valid) :
    (timerBefore (Block.runTimer step) calls n).Tracks (stateBefore step calls n) := by
  induction n with
  | zero => exact tracks_zero
  | succ n ih =>
    have before := ih fun i lt => valid i (Nat.lt_succ_of_lt lt)
    have call_valid := valid n (Nat.lt_succ_self n)
    unfold timerBefore stateBefore
    rw [TimerCall.outputs_eq step call_valid before rfl]
    exact TimerCall.tracks_setTimer before _

/-! ## §3 The calls of a run -/

/-- The state that the timer holds before the call of number `i`. -/
def timerState (block : TimerBlock) (calls : Nat → TimerCall) (i : Nat) : TimerState :=
  (timerBefore block calls i).timer?.getD {}

section Calls

variable {step : TimerState → Bool → Duration → TimerState} {calls : Nat → TimerCall} {i n : Nat}
variable (valid : ∀ j < n, (calls j).Valid)
include valid

theorem timerState_eq (le : i ≤ n) :
    timerState (Block.runTimer step) calls i = stateBefore step calls i := by
  have tracks := tracks_timerBefore step fun j lt => valid j (Nat.lt_of_lt_of_le lt le)
  unfold timerState
  rw [tracks.timer?]
  rfl

variable (step) in
/-- Each call makes one step from the state that the timer holds. -/
theorem timerState_succ (lt : i < n) :
    timerState (Block.runTimer step) calls (i + 1) =
      step ((timerState (Block.runTimer step) calls i).withPreset (calls i).pt) (calls i).on
        (calls i).now := by
  rw [timerState_eq valid lt, timerState_eq valid (Nat.le_of_lt lt)]
  rfl

theorem status_timerBefore (lt : i < n) :
    (calls i).status (Block.runTimer step) (timerBefore (Block.runTimer step) calls i) =
      .ok () := by
  have tracks := tracks_timerBefore step fun j before => valid j (Nat.lt_trans before lt)
  exact TimerCall.status_eq step (valid i lt) tracks

/-- The elapsed time that a call hands out is that of the state it leaves in the timer. -/
theorem handed_timerBefore (lt : i < n) :
    ((calls i).outputs (Block.runTimer step)
        (timerBefore (Block.runTimer step) calls i)).elapsed.map Value.duration? =
      (calls i).elapsed.map fun _ =>
        some (timerState (Block.runTimer step) calls (i + 1)).elapsed := by
  have tracks := tracks_timerBefore step fun j before => valid j (Nat.lt_trans before lt)
  rw [timerState_eq valid lt, TimerCall.outputs_eq step (valid i lt) tracks rfl, Option.map_map]
  rfl

end Calls

/-! ## §4 Spells of the input -/

/-- The calls from number `first` to number `i` all have the input `on`, and no call before them
belongs to them: the spell of equal inputs that ends with the call of number `i`. -/
structure Spell (calls : Nat → TimerCall) (on : Bool) (first i : Nat) : Prop where
  le : first ≤ i
  same : ∀ j, first ≤ j → j ≤ i → (calls j).on = on
  maximal : ∀ j, j + 1 = first → (calls j).on = !on

namespace Spell

variable {calls : Nat → TimerCall} {on : Bool} {first first' i k : Nat}

theorem zero (sample : (calls 0).on = on) : Spell calls on 0 0 := by
  refine ⟨Nat.le_refl 0, fun j _ le => ?_, fun j eq => by cases eq⟩
  obtain rfl := Nat.le_zero.mp le
  exact sample

/-- A change of the input begins a spell. -/
theorem begins (before : (calls i).on = !on) (sample : (calls (i + 1)).on = on) :
    Spell calls on (i + 1) (i + 1) := by
  refine ⟨Nat.le_refl _, fun j ge le => ?_, fun j eq => ?_⟩
  · obtain rfl := Nat.le_antisymm le ge
    exact sample
  · obtain rfl := Nat.succ.inj eq
    exact before

/-- The spell goes on for as long as the input does not change. -/
theorem extend (spell : Spell calls on first i) (le : i ≤ k)
    (same : ∀ j, i ≤ j → j ≤ k → (calls j).on = on) : Spell calls on first k := by
  refine ⟨Nat.le_trans spell.le le, fun j ge before => ?_, spell.maximal⟩
  rcases Nat.le_total j i with earlier | later
  · exact spell.same j ge earlier
  · exact same j later before

theorem succ (spell : Spell calls on first i) (sample : (calls (i + 1)).on = on) :
    Spell calls on first (i + 1) := by
  refine spell.extend (Nat.le_succ i) fun j ge le => ?_
  rcases Nat.le_succ_iff.mp le with before | rfl
  · exact spell.same j (Nat.le_trans spell.le ge) before
  · exact sample

/-- Of two beginnings the later one would have a call of its own spell right before it. -/
theorem not_lt (spell : Spell calls on first i) (spell' : Spell calls on first' i) :
    ¬first < first' := by
  intro lt
  obtain ⟨j, rfl⟩ := Nat.exists_eq_succ_of_ne_zero (Nat.ne_of_gt (Nat.zero_lt_of_lt lt))
  have inside := spell.same j (Nat.le_of_lt_succ lt) (Nat.le_of_succ_le spell'.le)
  have outside := spell'.maximal j rfl
  rw [inside] at outside
  cases on <;> cases outside

/-- A call belongs to one spell only. -/
theorem unique (spell : Spell calls on first i) (spell' : Spell calls on first' i) :
    first = first' :=
  Nat.le_antisymm (Nat.le_of_not_lt (spell'.not_lt spell)) (Nat.le_of_not_lt (spell.not_lt spell'))

end Spell

end Plc
