import Plc.Proofs.Library
import Plc.Proofs.Operator.Overwritten

/-!
# Calls leave nothing of the old contents

What a call replies depends on the operands and on the type and the flags of the result container, and on
nothing that was stored in it. This holds of every standard operator, of conversions, and of names that
stand for nothing.

Main statements:

* `Stock.program_overwrites`: what a name does hides the old content.
* `Stock.call_overwrites`: the same told of the replies to two calls.
-/

namespace Plc

open Call

namespace Library

open Operator in
theorem standardEntries_overwrite (mode : PowerMode) :
    ∀ entry ∈ standardEntries mode, Call.Overwrites entry.2.run := by
  -- The families of operators that differ in a function, a direction or a relation only.
  have real (g : Double → Double) : Call.Overwrites (unary (ofReal g)).run :=
    unary_overwrites fun _ wf => ofReal_overwrites g wf
  have shifting (d : Direction) : Call.Overwrites (binary (shift d)).run :=
    binary_overwrites fun _ n wf _ => shift_overwrites d wf n
  have rotating (d : Direction) : Call.Overwrites (binary (rotate d)).run :=
    binary_overwrites fun _ n wf _ => rotate_overwrites d wf n
  have logical (combine : Wide → Wide → Wide) : Call.Overwrites (binary (bitwise combine)).run :=
    binary_overwrites fun _ _ wf wf' => bitwise_overwrites combine wf wf'
  have relating (relation : Relation) : Call.Overwrites (binary (relate relation)).run :=
    binary_overwrites fun a b _ _ => relate_overwrites relation a b
  simp only [standardEntries, List.forall_mem_cons]
  exact ⟨fold_overwrites _, fold_overwrites _,
    binary_overwrites fun _ _ wf wf' => sub_overwrites wf wf',
    binary_overwrites fun _ _ wf wf' => div_overwrites wf wf',
    binary_overwrites fun _ _ wf wf' => mod_overwrites wf wf',
    binary_overwrites fun a b _ _ => expt_overwrites mode a b,
    unary_overwrites fun _ wf => abs_overwrites wf,
    real _, real _, real _, real _, real _, real _, real _, real _, real _, real _,
    binary_overwrites fun _ _ wf wf' => atan2_overwrites wf wf',
    shifting _, shifting _, rotating _, rotating _, logical _, logical _, logical _,
    unary_overwrites fun _ wf => complement_overwrites wf,
    relating _, relating _, relating _, relating _, relating _, relating _,
    unary_overwrites fun a _ => move_overwrites a,
    ternary_overwrites sel_overwrites, extreme_overwrites _, extreme_overwrites _,
    ternary_overwrites fun low value high => limit_overwrites value low high, mux_overwrites,
    unary_overwrites fun s _ => len_overwrites s,
    binary_overwrites fun s n _ _ => left_overwrites s n,
    binary_overwrites fun s n _ _ => right_overwrites s n,
    ternary_overwrites mid_overwrites, concat_overwrites, ternary_overwrites insert_overwrites,
    ternary_overwrites delete_overwrites, quaternary_overwrites replace_overwrites,
    binary_overwrites fun s text _ _ => find_overwrites s text,
    binary_overwrites fun a b _ _ => addTime_overwrites a b,
    binary_overwrites fun a b _ _ => subTime_overwrites a b,
    binary_overwrites fun t factor _ _ => mulTime_overwrites t factor,
    binary_overwrites fun t divisor _ _ => divTime_overwrites t divisor,
    fun _ mem => absurd mem List.not_mem_nil⟩

/-- Whatever a name does, it hides the old content of the result. -/
theorem Stock.program_overwrites {lib : Library} (stock : Stock lib) (name : String) :
    Call.Overwrites (lib.program name) :=
  stock.program_of_each standardEntries_overwrite
    (fun c => unary_overwrites fun a _ => Conversion.apply_overwrites c lib.profile a)
    (overwrites_flush (Program.couples_throw _)) name

/-- Called on the same operands, with results that differ in their content only, a name gives one status
both times, and where it succeeds the results are equal. -/
theorem Stock.call_overwrites {lib : Library} (stock : Stock lib) (name : String)
    {operands : OperandStack} (wf : ∀ v ∈ operands.popOrder, v.WellFormed) {result result' : Value}
    (shell : result.SameShell result') :
    (lib.call name result operands).status = (lib.call name result' operands).status ∧
      ((lib.call name result operands).status = .ok () →
        (lib.call name result operands).result = (lib.call name result' operands).result) := by
  rcases stock.program_overwrites name ⟨result, operands⟩ ⟨result', operands⟩ ⟨rfl, wf, shell⟩ with
    ⟨_, written, _, run, run', rfl⟩ | ⟨fault, _, _, run, run'⟩
  · simp only [call, Program.status_of_ok run, Program.status_of_ok run', Program.final_of_ok run,
      Program.final_of_ok run', implies_true, and_self]
  · simp only [call, Program.status_of_error run, Program.status_of_error run', reduceCtorEq,
      false_implies, and_self]

/-- TIME outranks both operands of SUB and stays the type of the result, so the difference is put in the
place of the old time there, as a count of milliseconds. -/
theorem call_overwrites_time :
    let operands := OperandStack.ofList [.ofNumber .int (.ofInt 7), .ofNumber .sint (.ofInt 3)]
    let old := Value.ofDuration (.ofSeconds 60)
    let fresh := Value.zero .time
    (∀ v ∈ operands.popOrder, v.WellFormed) ∧ old.SameShell fresh ∧ old ≠ fresh ∧
      ((standard .power {}).call "SUB" old operands).status = .ok () ∧
      ((standard .power {}).call "SUB" old operands).result = .ofDuration (.ofMillis 4) ∧
      ((standard .power {}).call "SUB" fresh operands).result = .ofDuration (.ofMillis 4) := by
  have wf : ∀ v ∈ (OperandStack.ofList [.ofNumber .int (.ofInt 7),
      .ofNumber .sint (.ofInt 3)]).popOrder, v.WellFormed :=
    List.forall_mem_cons.mpr ⟨(Value.wellFormed_zero .sint).setNumber _,
      List.forall_mem_singleton.mpr ((Value.wellFormed_zero .int).setNumber _)⟩
  have shell : (Value.ofDuration (.ofSeconds 60)).SameShell (.zero .time) :=
    ⟨Value.closed_wellFormed.ofDuration _, Value.wellFormed_zero .time, rfl, rfl, rfl⟩
  have both := (Stock.standard .power {}).call_overwrites "SUB" wf shell
  have succeeds : ((standard .power {}).call "SUB" (.ofDuration (.ofSeconds 60)) (.ofList
      [.ofNumber .int (.ofInt 7), .ofNumber .sint (.ofInt 3)])).status = .ok () := by decide +kernel
  have written : ((standard .power {}).call "SUB" (.ofDuration (.ofSeconds 60)) (.ofList
      [.ofNumber .int (.ofInt 7), .ofNumber .sint (.ofInt 3)])).result = .ofDuration (.ofMillis 4) := by
    decide +kernel
  exact ⟨wf, shell, by decide, succeeds, written, (both.2 succeeds).symm.trans written⟩

end Library

end Plc
