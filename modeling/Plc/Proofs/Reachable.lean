import Plc.Proofs.Block.Closed
import Plc.Proofs.Library

/-!
# The values that a host can reach

A host makes values, changes them through the operations on values, and hands them to calls of the
library and to blocks. `Step` lists all that it can do, and `Run` does it any number of times. The
values that were there before a step are still held after it: a host may copy a value before it has
it changed.

Main statements:

* `Step.holds`, `Run.holds`: a property of fresh values that no write takes away holds of every value held.
* `Run.wellFormed`: every value held is well-formed.
-/

namespace Plc

open Program

variable {P : Value → Prop}

/-! ## §1 The outputs of blocks -/

theorem CounterOutputs.Both.imp {Q : Value → Prop} {out : CounterOutputs} (both : out.Both P)
    (weaken : ∀ v, P v → Q v) : out.Both Q :=
  ⟨weaken out.q both.q, weaken out.cv both.cv⟩

theorem TimerOutputs.Both.imp {Q : Value → Prop} {out : TimerOutputs} (both : out.Both P)
    (weaken : ∀ v, P v → Q v) : out.Both Q :=
  ⟨weaken out.timer both.timer, fun v wanted => weaken v (both.elapsed v wanted)⟩

/-- The values in the two containers. -/
def CounterOutputs.values (out : CounterOutputs) : List Value := [out.q, out.cv]

/-- The values in the containers there are. -/
def TimerOutputs.values (out : TimerOutputs) : List Value := out.timer :: out.elapsed.toList

theorem CounterOutputs.Both.forall_mem {out : CounterOutputs} (both : out.Both P) :
    ∀ v ∈ out.values, P v :=
  List.forall_mem_cons.mpr ⟨both.q, List.forall_mem_singleton.mpr both.cv⟩

theorem TimerOutputs.Both.forall_mem {out : TimerOutputs} (both : out.Both P) :
    ∀ v ∈ out.values, P v :=
  List.forall_mem_cons.mpr ⟨both.timer, fun v mem => both.elapsed v (Option.mem_toList.mp mem)⟩

/-! ## §2 Steps and runs -/

namespace Host

/-- What a host that holds values can have made from them. -/
inductive Step (held : List Value) : List Value → Prop where
  -- Making values
  | zero (t : DataType) : Step held [.zero t]
  | ofNumber (t : DataType) (n : Number) : Step held [.ofNumber t n]
  | ofText (content : String) (wide hashed : Bool) : Step held [.ofText content wide hashed]
  | ofDuration (d : Duration) : Step held [.ofDuration d]
  | materialize {literal : Literal} {profile : LiteralProfile} {v : Value}
      (found : literal.materialize profile = .ok v) : Step held [v]
  | parse {text : List Char} {profile : LiteralProfile} {v : Value}
      (found : Literal.parse text profile = .ok v) : Step held [v]
  | copy {source : Value} (mem : source ∈ held) : Step held [source]
  -- Changing them
  | retype {v : Value} (mem : v ∈ held) (t : DataType) : Step held [v.retype t]
  | promote {v : Value} (mem : v ∈ held) (t : DataType) : Step held [v.promote t]
  | setNumber {v : Value} (mem : v ∈ held) (n : Number) : Step held [v.setNumber n]
  | setBool {v : Value} (mem : v ∈ held) (on : Bool) : Step held [v.setBool on]
  | setText {v : Value} (mem : v ∈ held) (content : String) (wide hashed : Bool) :
      Step held [v.setText content wide hashed]
  | setDuration {v : Value} (mem : v ∈ held) (d : Duration) : Step held [v.setDuration d]
  | setPayload {v v' : Value} {p : Payload} (mem : v ∈ held) (genuine : p.Genuine)
      (found : v.setPayload? p = some v') : Step held [v']
  | setPayloadOf {v v' source : Value} (mem : v ∈ held) (source_mem : source ∈ held)
      (found : v.setPayload? source.payload = some v') : Step held [v']
  | setAttribute {v : Value} (mem : v ∈ held) (which : Attribute) (on : Bool) :
      Step held [v.setAttribute which on]
  | setState {v : Value} (mem : v ∈ held) (which : StateFlag) (on : Bool) :
      Step held [v.setState which on]
  -- Calls, whether they fail or not
  | call {lib : Library} (stock : lib.Stock) (name : String) {result : Value}
      {operands : OperandStack} (mem : result ∈ held)
      (operands_mem : ∀ v ∈ operands.popOrder, v ∈ held) :
      Step held [(lib.call name result operands).result]
  -- Blocks, whether they fail or not
  | sr {q : Value} (mem : q ∈ held) (input reset : Value) :
      Step held [(Block.sr input reset).final q]
  | rs {q : Value} (mem : q ∈ held) (input reset : Value) :
      Step held [(Block.rs input reset).final q]
  | rTrig {q : Value} (mem : q ∈ held) (clk : Value) : Step held [(Block.rTrig clk).final q]
  | fTrig {q : Value} (mem : q ∈ held) (clk : Value) : Step held [(Block.fTrig clk).final q]
  | ctu {out : CounterOutputs} (both : out.Both (· ∈ held)) (edge reset preset : Value) :
      Step held ((Block.ctu edge reset preset).final out).values
  | ctd {out : CounterOutputs} (both : out.Both (· ∈ held)) (edge load preset : Value) :
      Step held ((Block.ctd edge load preset).final out).values
  | tp {out : TimerOutputs} (both : out.Both (· ∈ held)) (input preset : Value)
      (now : Duration) : Step held ((Block.tp input preset now).final out).values
  | ton {out : TimerOutputs} (both : out.Both (· ∈ held)) (input preset : Value)
      (now : Duration) : Step held ((Block.ton input preset now).final out).values
  | tof {out : TimerOutputs} (both : out.Both (· ∈ held)) (input preset : Value)
      (now : Duration) : Step held ((Block.tof input preset now).final out).values

/-- Any number of steps, from nothing. -/
inductive Run : List Value → Prop where
  | start : Run []
  | step {held made : List Value} (run : Run held) (step : Step held made) : Run (made ++ held)

/-! ## §3 What steps and runs keep -/

/-- No step makes a value without the property out of values with it. -/
theorem Step.holds (closed : Value.Closed P) {held made : List Value} (step : Step held made)
    (holds : ∀ v ∈ held, P v) : ∀ v ∈ made, P v := by
  have stable := closed.toStable
  -- Most steps make one value.
  have one {v : Value} (holds_v : P v) : ∀ u ∈ [v], P u := List.forall_mem_singleton.mpr holds_v
  cases step with
  | zero t => exact one (closed.zero t)
  | ofNumber t n => exact one (closed.ofNumber t n)
  | ofText content wide hashed => exact one (closed.ofText content wide hashed)
  | ofDuration d => exact one (closed.ofDuration d)
  | materialize found => exact one (closed.materialize found)
  | parse found => exact one (closed.parse found)
  | copy mem => exact one (holds _ mem)
  | retype mem t => exact one (stable.retype _ t (holds _ mem))
  | promote mem t => exact one (stable.promote _ t (holds _ mem))
  | setNumber mem n => exact one (stable.setNumber _ n (holds _ mem))
  | setBool mem on => exact one (stable.setNumber _ _ (holds _ mem))
  | setText mem content wide hashed =>
    exact one (stable.setText _ content wide hashed (holds _ mem))
  | setDuration mem d => exact one (stable.setDuration _ d (holds _ mem))
  | setPayload mem genuine found =>
    exact one (closed.setPayload genuine found (holds _ mem))
  | setPayloadOf mem source_mem found =>
    exact one (closed.setPayloadOf (holds _ source_mem) found (holds _ mem))
  | setAttribute mem which on =>
    exact one (closed.setAttribute _ which on (holds _ mem))
  | setState mem which on =>
    exact one (closed.setState _ which on (holds _ mem))
  | call stock name mem operands_mem =>
    have operands_hold := fun v mem => holds v (operands_mem v mem)
    exact one (stock.call_holds closed name (holds _ mem) operands_hold)
  | sr mem input reset =>
    have settles := Block.sr_settles closed input reset
    exact one (settles.keeps _ (holds _ mem))
  | rs mem input reset =>
    have settles := Block.rs_settles closed input reset
    exact one (settles.keeps _ (holds _ mem))
  | rTrig mem clk =>
    have settles := Block.rTrig_settles closed clk
    exact one (settles.keeps _ (holds _ mem))
  | fTrig mem clk =>
    have settles := Block.fTrig_settles closed clk
    exact one (settles.keeps _ (holds _ mem))
  | ctu both edge reset preset =>
    have settles := Block.ctu_settles closed edge reset preset
    exact (settles.keeps _ (both.imp holds)).forall_mem
  | ctd both edge load preset =>
    have settles := Block.ctd_settles closed edge load preset
    exact (settles.keeps _ (both.imp holds)).forall_mem
  | tp both input preset now =>
    exact (Block.runTimer_keeps closed _ input preset now _ (both.imp holds)).forall_mem
  | ton both input preset now =>
    exact (Block.runTimer_keeps closed _ input preset now _ (both.imp holds)).forall_mem
  | tof both input preset now =>
    exact (Block.runTimer_keeps closed _ input preset now _ (both.imp holds)).forall_mem

/-- The induction is on the steps of the run: the values made last join those held before. -/
theorem Run.holds (closed : Value.Closed P) {held : List Value} (run : Run held) :
    ∀ v ∈ held, P v := by
  induction run with
  | start => exact fun v mem => absurd mem List.not_mem_nil
  | step run step ih =>
    intro v mem
    rcases List.mem_append.mp mem with made | before
    · exact step.holds closed ih v made
    · exact ih v before

/-- Whatever a host does, the values that it holds are well-formed. -/
theorem Run.wellFormed {held : List Value} (run : Run held) : ∀ v ∈ held, v.WellFormed :=
  run.holds Value.closed_wellFormed

/-- A text kept with its checksum is cut, and the number that held the place of the result gives way
to the shorter text with the checksum of its own. -/
theorem Run.wellFormed_of_cut :
    let text := Value.ofText "pulse" false true
    let count := Value.ofNumber .int (.ofInt 3)
    let cut := ((Library.standard .power {}).call "left" count (.ofList [text, count])).result
    Run [cut, count, text] ∧ cut.text? = some (.ofString "pul" true) ∧ cut.WellFormed := by
  have left :
      (((Library.standard .power {}).call "left" (.ofNumber .int (.ofInt 3)) (.ofList
        [.ofText "pulse" false true, .ofNumber .int (.ofInt 3)])).result).text? =
          some (.ofString "pul" true) := by
    decide +kernel
  intro text count cut
  have making : Run [count, text] := .step (.step .start (.ofText "pulse" false true)) (.ofNumber ..)
  have calling : Step [count, text] [cut] := by
    refine .call (.standard .power {}) "left" List.mem_cons_self fun v mem => ?_
    rw [OperandStack.popOrder_ofList] at mem
    exact mem
  have run := making.step calling
  exact ⟨run, left, run.wellFormed cut List.mem_cons_self⟩

end Host

end Plc
