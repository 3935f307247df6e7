import Plc.Block.Counter
import Plc.Block.Latch
import Plc.Block.Timer
import Plc.Proofs.Program
import Plc.Proofs.Value.Closed

/-!
# When blocks accept their arguments

A block has an exact type for each of its inputs and for the containers that it reads before it writes
to them. It succeeds exactly if all these types are right; one that is wrong stops it before anything
is written, and all its containers are as they were. A timer block writes to the timer, namely its mark
of having been set up, before it looks into it, but a value of type TIMER has always the state of a
timer in it, so that this last look does not fail any more.

Main statements:

* `requireCounter_checks`, `requireTimer_checks`: the questions that the checks in front ask.
* `gated_by_types`: all nine blocks are all or nothing.
-/

namespace Plc

open Program

/-! ## §1 The checks -/

theorem Value.requireType_checks (v : Value) (t : DataType) :
    Checks .notAllowedType (v.type = t) (v.requireType t) :=
  ⟨fun right => if_pos right, fun wrong => if_neg wrong⟩

namespace Block

theorem requireCounter_checks (edge control preset cv : Value) :
    Checks .notAllowedType
      (edge.type = .rEdge ∧ control.type = .bool ∧ preset.type = .int ∧ cv.type = .int)
      (requireCounter edge control preset cv) :=
  (edge.requireType_checks .rEdge).bind <| (control.requireType_checks .bool).bind <|
    (preset.requireType_checks .int).bind (cv.requireType_checks .int)

theorem requireTimer_checks (timer input preset : Value) (elapsed : Option Value) :
    Checks .notAllowedType
      (input.type = .bool ∧ preset.type = .time ∧ timer.type = .timer ∧
        ∀ v, elapsed = some v → v.type = .time)
      (requireTimer timer input preset elapsed) := by
  refine (input.requireType_checks .bool).bind <| (preset.requireType_checks .time).bind <|
    (timer.requireType_checks .timer).bind ?_
  cases elapsed with
  | none => exact ⟨fun _ => rfl, fun wrong => absurd (fun v wanted => by cases wanted) wrong⟩
  | some v =>
    have checks := v.requireType_checks .time
    refine ⟨fun right => checks.passes (right v rfl), fun wrong => checks.stops fun type => wrong ?_⟩
    rintro _ ⟨⟩
    exact type

/-! ## §2 Bistables and edge detectors -/

variable (input reset clk q : Value)

theorem sr_gated : Gated .notAllowedType (input.type = .bool ∧ reset.type = .bool) (·.type = .bool)
    (sr input reset) q := by
  refine gated_check_gated (input.requireType_checks .bool) fun _ => ?_
  exact gated_check (reset.requireType_checks .bool) fun _ => ⟨(), _, rfl, q.type_retype .bool⟩

theorem rs_gated : Gated .notAllowedType (input.type = .bool ∧ reset.type = .bool) (·.type = .bool)
    (rs input reset) q := by
  refine gated_check_gated (input.requireType_checks .bool) fun _ => ?_
  exact gated_check (reset.requireType_checks .bool) fun _ => ⟨(), _, rfl, q.type_retype .bool⟩

theorem rTrig_gated : Gated .notAllowedType (clk.type = .bool) (·.type = .bool) (rTrig clk) q :=
  gated_check (clk.requireType_checks .bool) fun _ => ⟨(), _, rfl, q.type_retype .bool⟩

theorem fTrig_gated : Gated .notAllowedType (clk.type = .bool) (·.type = .bool) (fTrig clk) q :=
  gated_check (clk.requireType_checks .bool) fun _ => ⟨(), _, rfl, q.type_retype .bool⟩

/-! ## §3 Counters -/

/-- A counter whose next count is of the type of the old one. -/
theorem count_gated (edge control preset : Value) {next : Value → Value} (reached : Value → Bool)
    (keeps : ∀ cv, (next cv).type = cv.type) (out : CounterOutputs) :
    Gated .notAllowedType
      (edge.type = .rEdge ∧ control.type = .bool ∧ preset.type = .int ∧ out.cv.type = .int)
      (fun after => after.q.type = .bool ∧ after.cv.type = .int)
      (count edge control preset next reached) out := by
  refine gated_get (gated_check (requireCounter_checks edge control preset out.cv) ?_)
  rintro ⟨_, _, _, type⟩
  exact ⟨(), _, rfl, out.q.type_retype .bool, (keeps out.cv).trans type⟩

theorem type_countUp (edge reset preset cv : Value) : (countUp edge reset preset cv).type = cv.type := by
  unfold countUp
  split
  · rfl
  · split <;> rfl

theorem type_countDown (edge load preset cv : Value) :
    (countDown edge load preset cv).type = cv.type := by
  unfold countDown
  split
  · rfl
  · split <;> rfl

/-! ## §4 Timers -/

/-- The state of a timer is in every well-formed value of its type. -/
theorem exists_timer {timer : Value} (wf : timer.WellFormed) (type : timer.type = .timer) :
    ∃ state, timer.timer? = some state := by
  have shape := wf.shape
  rw [type] at shape
  obtain ⟨type, categories, ⟨held, data⟩, attributes, state⟩ := timer
  obtain rfl : held = .timer := shape
  exact ⟨data, rfl⟩

variable (preset : Value) (out : TimerOutputs)

/-- Once the types are right, a timer is found in the container, and it has been marked. -/
theorem prepare_gated (wf : out.timer.WellFormed) :
    Gated .notAllowedType
      (input.type = .bool ∧ preset.type = .time ∧ out.timer.type = .timer ∧
        ∀ v, out.elapsed = some v → v.type = .time)
      (fun after => after.timer.type = .timer ∧ (∃ state, after.timer.timer? = some state) ∧
        after.elapsed = out.elapsed)
      (prepare input preset) out := by
  refine gated_get (gated_check (requireTimer_checks out.timer input preset out.elapsed) ?_)
  rintro ⟨_, _, type, _⟩
  obtain ⟨state, found⟩ := exists_timer wf type
  have looked : Fault.notAllowedType.ifNone out.timer.timer? = .ok state := by
    rw [found]
    rfl
  simp only [looked]
  exact ⟨_, ⟨out.timer.setState .initialized true, out.elapsed⟩, rfl, type, ⟨state, found⟩, rfl⟩

theorem timer?_setTimer {timer : Value} {before : TimerState} (found : timer.timer? = some before)
    (state : TimerState) : (timer.setTimer state).timer? = some state := by
  unfold Value.setTimer
  rw [found]
  rfl

theorem type_setTimer (timer : Value) (state : TimerState) :
    (timer.setTimer state).type = timer.type := by
  unfold Value.setTimer
  split <;> rfl

theorem runTimer_gated (step : TimerState → Bool → Duration → TimerState) (now : Duration)
    (wf : out.timer.WellFormed) :
    Gated .notAllowedType
      (input.type = .bool ∧ preset.type = .time ∧ out.timer.type = .timer ∧
        ∀ v, out.elapsed = some v → v.type = .time)
      (fun after => after.timer.type = .timer ∧ ∃ state, after.timer.timer? = some state ∧
        after.elapsed.map (fun v => (v.type, v.duration?)) =
          out.elapsed.map fun _ => (.time, some state.elapsed))
      (runTimer step input preset now) out := by
  refine (prepare_gated input preset out wf).bind ?_
  rintro state marked ⟨type, ⟨before, found⟩, elapsed⟩
  refine ⟨(), _, rfl, (type_setTimer _ _).trans type, _, timer?_setTimer found _, ?_⟩
  show (marked.elapsed.map _).map _ = _
  rw [elapsed, Option.map_map]
  congr 1
  funext v
  exact Prod.ext (Value.type_retype v .time) rfl

/-! ## §5 All blocks -/

/-- With arguments of the right types a block succeeds, and its outputs are of the types that they
should have. With any other arguments it stops and leaves all its containers as they were. -/
theorem gated_by_types :
    (∀ block ∈ [sr, rs], ∀ input reset q : Value,
      Gated .notAllowedType (input.type = .bool ∧ reset.type = .bool) (·.type = .bool)
        (block input reset) q) ∧
    (∀ block ∈ [rTrig, fTrig], ∀ clk q : Value,
      Gated .notAllowedType (clk.type = .bool) (·.type = .bool) (block clk) q) ∧
    (∀ block ∈ [ctu, ctd], ∀ (edge control preset : Value) (out : CounterOutputs),
      Gated .notAllowedType
        (edge.type = .rEdge ∧ control.type = .bool ∧ preset.type = .int ∧ out.cv.type = .int)
        (fun after => after.q.type = .bool ∧ after.cv.type = .int)
        (block edge control preset) out) ∧
    ∀ block ∈ [tp, ton, tof], ∀ (input preset : Value) (now : Duration) (out : TimerOutputs),
      out.timer.WellFormed →
      Gated .notAllowedType
        (input.type = .bool ∧ preset.type = .time ∧ out.timer.type = .timer ∧
          ∀ v, out.elapsed = some v → v.type = .time)
        (fun after => after.timer.type = .timer ∧ ∃ state, after.timer.timer? = some state ∧
          -- The container for the elapsed time is there exactly if it was.
          after.elapsed.map (fun v => (v.type, v.duration?)) =
            out.elapsed.map fun _ => (.time, some state.elapsed))
        (block input preset now) out := by
  simp only [List.forall_mem_cons, List.not_mem_nil, false_imp_iff, implies_true, and_true]
  refine ⟨⟨sr_gated, rs_gated⟩, ⟨rTrig_gated, fTrig_gated⟩, ⟨?_, ?_⟩, ?_, ?_, ?_⟩
  · intro edge reset preset out
    exact count_gated edge reset preset _ (type_countUp edge reset preset) out
  · intro edge load preset out
    exact count_gated edge load preset _ (type_countDown edge load preset) out
  · intro input preset now out wf
    exact runTimer_gated input preset out _ now wf
  · intro input preset now out wf
    exact runTimer_gated input preset out _ now wf
  · intro input preset now out wf
    exact runTimer_gated input preset out _ now wf

/-- A BOOL counts for no edge, and a running timer goes on only if the elapsed time is handed to a
TIME. -/
theorem gated_by_types_running :
    let on := Value.ofNumber .bool (.ofBool true)
    let preset := Value.ofDuration (.ofMillis 10)
    let timer := (Value.zero .timer).setTimer { running := true, start := .ofMillis 5 }
    timer.WellFormed ∧
    (∃ a q, (rs on on).run (.zero .wstring) = .ok a q ∧ q.type = .bool) ∧
    (fTrig preset).run on = .error .notAllowedType on ∧
    (ctd on on (.zero .int)).run ⟨on, .zero .int⟩ = .error .notAllowedType ⟨on, .zero .int⟩ ∧
    (ton on preset (.ofMillis 9)).run ⟨timer, some (.zero .dint)⟩ =
      .error .notAllowedType ⟨timer, some (.zero .dint)⟩ ∧
    ∃ a after, (ton on preset (.ofMillis 9)).run ⟨timer, some (.zero .time)⟩ = .ok a after ∧
      ∃ state, after.timer.timer? = some state ∧
        after.elapsed.map (fun v => (v.type, v.duration?)) = some (.time, some state.elapsed) := by
  intro on preset timer
  have wf : timer.WellFormed := (Value.wellFormed_zero .timer).setTimer _
  obtain ⟨bistables, triggers, counters, timers⟩ := gated_by_types
  have delay := timers ton (by simp) on preset (.ofMillis 9)
  refine ⟨wf, ?_, ?_, ?_, ?_, ?_⟩
  · exact (bistables rs (by simp) on on (.zero .wstring)).passes ⟨rfl, rfl⟩
  · exact (triggers fTrig (by simp) preset on).stops (by decide)
  · exact (counters ctd (by simp) on on (.zero .int) ⟨on, .zero .int⟩).stops (by decide)
  · refine (delay ⟨timer, some (.zero .dint)⟩ wf).stops fun right => ?_
    exact absurd (right.2.2.2 _ rfl) (by decide)
  · have given : ∀ v, some (Value.zero .time) = some v → v.type = .time := by
      rintro _ ⟨⟩
      rfl
    obtain ⟨a, after, run, _, handed⟩ :=
      (delay ⟨timer, some (.zero .time)⟩ wf).passes ⟨rfl, rfl, rfl, given⟩
    exact ⟨a, after, run, handed⟩

end Block

end Plc
