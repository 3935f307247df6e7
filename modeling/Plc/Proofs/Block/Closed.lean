import Plc.Block.Counter
import Plc.Block.Latch
import Plc.Block.Timer
import Plc.Proofs.Program
import Plc.Proofs.Value.Closed

/-!
# Blocks keep what writing keeps

A block writes to one output or to several. Each of them keeps the properties that no write takes
away. Bistables, edge detectors and counters check all types before they write, so that they settle;
a timer block marks its timer as initialized before it looks into it, so it is only said to keep.
-/

namespace Plc

open Program

variable {P : Value → Prop}

/-- Both outputs of a counter have the property. -/
structure CounterOutputs.Both (P : Value → Prop) (out : CounterOutputs) : Prop where
  q : P out.q
  cv : P out.cv

/-- The timer and the elapsed time, if it is wanted, have the property. -/
structure TimerOutputs.Both (P : Value → Prop) (out : TimerOutputs) : Prop where
  timer : P out.timer
  elapsed : ∀ v, out.elapsed = some v → P v

namespace Block

variable (closed : Value.Closed P)
include closed

/-! ## §1 Bistables and edge detectors -/

theorem setBool_keeps (v : Value) (on : Bool) (holds : P v) : P (v.setBool on) :=
  closed.setNumber v (.ofBool on) holds

theorem writes_setBool (on : Bool) : Writes P (modify (·.setBool on)) :=
  writes_modify fun v => setBool_keeps closed v on

theorem latch_writes : Writes P latch := by
  refine writes_bind (writes_modify fun v => closed.retype v .bool) fun _ => ?_
  refine writes_bind (writes_modify fun v => closed.setAttribute v .maintain true) fun _ => ?_
  exact writes_get fun v => writes_pure v.isTrue

theorem sr_settles (input reset : Value) : Settles P (sr input reset) := by
  refine settles_check fun _ _ => settles_check fun _ _ => Writes.settles ?_
  exact writes_bind (latch_writes closed) fun _ => writes_setBool closed _

theorem rs_settles (input reset : Value) : Settles P (rs input reset) := by
  refine settles_check fun _ _ => settles_check fun _ _ => Writes.settles ?_
  exact writes_bind (latch_writes closed) fun _ => writes_setBool closed _

theorem detect_writes (sample : Bool) : Writes P (detect sample) := by
  refine writes_bind (latch_writes closed) fun _ => writes_get fun before => ?_
  refine writes_bind (writes_setBool closed _) fun _ => ?_
  exact writes_modify fun v => closed.setState v .flag1 sample

theorem rTrig_settles (clk : Value) : Settles P (rTrig clk) :=
  settles_check fun _ _ => (detect_writes closed clk.isTrue).settles

theorem fTrig_settles (clk : Value) : Settles P (fTrig clk) :=
  settles_check fun _ _ => (detect_writes closed (!clk.isTrue)).settles

/-! ## §2 Counters -/

theorem count_settles {edge control preset : Value} {next : Value → Value} {reached : Value → Bool}
    (keeps : ∀ cv, P cv → P (next cv)) :
    Settles (CounterOutputs.Both P) (count edge control preset next reached) := by
  refine settles_get fun _ => settles_check fun _ _ => Writes.settles ?_
  refine writes_bind (writes_modify fun out both => ?_) fun _ => ?_
  · exact ⟨closed.retype out.q .bool both.q, both.cv⟩
  refine writes_bind (writes_modify fun out both => ?_) fun _ => writes_modify fun out both => ?_
  · exact ⟨both.q, keeps out.cv both.cv⟩
  · exact ⟨setBool_keeps closed out.q _ both.q, both.cv⟩

theorem ctu_settles (edge reset preset : Value) :
    Settles (CounterOutputs.Both P) (ctu edge reset preset) := by
  refine count_settles closed fun cv holds => ?_
  unfold countUp
  split
  · exact closed.setNumber cv _ holds
  · split
    · exact closed.setNumber cv _ holds
    · exact holds

theorem ctd_settles (edge load preset : Value) :
    Settles (CounterOutputs.Both P) (ctd edge load preset) := by
  refine count_settles closed fun cv holds => ?_
  unfold countDown
  split
  · exact closed.setNumber cv _ holds
  · split
    · exact closed.setNumber cv _ holds
    · exact holds

/-! ## §3 Timers -/

theorem prepare_keeps (input preset : Value) :
    Keeps (TimerOutputs.Both P) (prepare input preset) := by
  refine keeps_get fun out => keeps_check fun _ _ => keeps_bind ?_ fun _ => ?_
  · refine (writes_modify fun out both => ?_).settles.keeps
    exact ⟨closed.setState out.timer .initialized true both.timer, both.elapsed⟩
  · exact keeps_check fun _ _ => (writes_pure _).settles.keeps

theorem publish_writes (state : TimerState) :
    Writes (TimerOutputs.Both P) (publish state) := by
  refine writes_bind (writes_modify fun out both => ?_) fun _ => writes_modify fun out both => ?_
  · exact ⟨closed.setTimer out.timer state both.timer, both.elapsed⟩
  · refine ⟨both.timer, fun v handed => ?_⟩
    obtain ⟨old, wanted, rfl⟩ := Option.map_eq_some_iff.mp handed
    exact closed.setDuration old state.elapsed (both.elapsed old wanted)

/-- Whatever the step of the timer computes. -/
theorem runTimer_keeps (step : TimerState → Bool → Duration → TimerState) (input preset : Value)
    (now : Duration) : Keeps (TimerOutputs.Both P) (runTimer step input preset now) :=
  keeps_bind (prepare_keeps closed input preset) fun _ =>
    (publish_writes closed _).settles.keeps

end Block

end Plc
