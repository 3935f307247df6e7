import Plc.Proofs.Operator.Settles

/-!
# Calls clear the operand stack

A call takes all operands off the stack, whatever becomes of it. It is judged by what it leaves in
both containers of its caller:

* `Call.Clears P call`: the stack ends up empty; and the call succeeds and keeps `P` on the result,
  or stops at a fault and leaves the result as it was.

What follows once the operands are off the stack is a program that settles on `Drained` frames. So a
call clears the stack if it drains it first (`clears_drain`) and what is then done settles.
-/

namespace Plc

open Program

variable {P : Value → Prop}

/-- No operand is left, and the result has the property. -/
structure Drained (P : Value → Prop) (frame : Frame) : Prop where
  operands : frame.operands = .empty
  result : P frame.result

namespace Call

/-- The call empties the stack. It succeeds and keeps `P`, which the operands have, on the result; or
it stops at a fault with the result as it was. -/
def Clears (P : Value → Prop) (call : Call) : Prop :=
  ∀ frame : Frame, P frame.result → (∀ v ∈ frame.operands.popOrder, P v) →
    (∃ result, call.run frame = .ok () ⟨result, .empty⟩ ∧ P result) ∨
      ∃ fault, call.run frame = .error fault ⟨frame.result, .empty⟩

/-! ## §1 Runs on a part of the frame -/

/-- An action runs on the result alone, and its outcome is put back beside the operands. -/
theorem onResult_of_ok {action : Action} {result result' : Value} (operands : OperandStack)
    (run : action.run result = .ok () result') :
    (onResult action).run ⟨result, operands⟩ = .ok () ⟨result', operands⟩ := by
  unfold EStateM.run at run ⊢
  unfold onResult
  rw [run]

theorem onResult_of_error {action : Action} {result result' : Value} {fault : Fault}
    (operands : OperandStack) (run : action.run result = .error fault result') :
    (onResult action).run ⟨result, operands⟩ = .error fault ⟨result', operands⟩ := by
  unfold EStateM.run at run ⊢
  unfold onResult
  rw [run]

/-- A call on operands of its own gives its caller the stack back. -/
theorem withOperands_of_ok {operands : OperandStack} {call : Call} {frame inner : Frame}
    (run : call.run ⟨frame.result, operands⟩ = .ok () inner) :
    (withOperands operands call).run frame = .ok () { frame with result := inner.result } := by
  unfold EStateM.run at run ⊢
  unfold withOperands
  rw [run]

theorem withOperands_of_error {operands : OperandStack} {call : Call} {frame inner : Frame}
    {fault : Fault} (run : call.run ⟨frame.result, operands⟩ = .error fault inner) :
    (withOperands operands call).run frame = .error fault { frame with result := inner.result } := by
  unfold EStateM.run at run ⊢
  unfold withOperands
  rw [run]

/-! ## §2 After the operands are taken -/

/-- An action on the result does not touch the stack. -/
theorem onResult_settles {action : Action} (settles : Settles P action) :
    Settles (Drained P) (onResult action) := by
  intro frame drained
  rcases settles frame.result drained.result with ⟨_, result, run, holds⟩ | ⟨fault, run⟩
  · exact Or.inl ⟨(), _, onResult_of_ok frame.operands run, drained.operands, holds⟩
  · exact Or.inr ⟨fault, onResult_of_error frame.operands run⟩

/-- A call that clears its own operands settles on those that its caller drained. -/
theorem withOperands_settles {operands : OperandStack} {call : Call} (clears : Clears P call)
    (holds : ∀ v ∈ operands.popOrder, P v) : Settles (Drained P) (withOperands operands call) := by
  intro frame drained
  rcases clears ⟨frame.result, operands⟩ drained.result holds with ⟨result, run, kept⟩ | ⟨fault, run⟩
  · exact Or.inl ⟨(), _, withOperands_of_ok run, drained.operands, kept⟩
  · have stopped := withOperands_of_error run
    exact Or.inr ⟨fault, stopped⟩

/-! ## §3 Taking the operands -/

/-- On a frame without operands, settling is the same as clearing. -/
theorem run_drained {rest : Call} (settles : Settles (Drained P) rest) {result : Value}
    (holds : P result) :
    (∃ result', rest.run ⟨result, .empty⟩ = .ok () ⟨result', .empty⟩ ∧ P result') ∨
      ∃ fault, rest.run ⟨result, .empty⟩ = .error fault ⟨result, .empty⟩ := by
  rcases settles ⟨result, .empty⟩ ⟨rfl, holds⟩ with ⟨_, ⟨result', operands⟩, run, drained⟩ | stopped
  · obtain rfl : operands = .empty := drained.operands
    exact Or.inl ⟨result', run, drained.result⟩
  · exact Or.inr stopped

/-- The stack drained first: all that is left is to settle. -/
theorem clears_drain {f : List Value → Call}
    (rest : ∀ operands, (∀ v ∈ operands, P v) → Settles (Drained P) (f operands)) :
    Clears P (drain >>= f) :=
  fun frame holds operands => run_drained (rest frame.operands.popOrder operands) holds

/-- The stack dropped first. -/
theorem clears_flush {rest : Call} (settles : Settles (Drained P) rest) :
    Clears P (flush >>= fun _ => rest) :=
  fun _ holds _ => run_drained settles holds

/-- The stack drained and its operands checked: there is a first one. -/
theorem clears_drainChecked {allowed : List Category} {f : List Value → Call}
    (rest : ∀ first others, P first → (∀ v ∈ others, P v) →
      Settles (Drained P) (f (first :: others))) :
    Clears P (drainChecked allowed >>= f) := by
  unfold drainChecked
  simp only [bind_assoc, pure_bind]
  refine clears_drain fun operands holds => ?_
  cases operands with
  | nil =>
    -- Without operands the first check stops the call.
    exact fun _ _ => Or.inr ⟨.nullParameter, rfl⟩
  | cons first others =>
    have others_hold : ∀ v ∈ others, P v := fun v mem => holds v (List.mem_cons_of_mem first mem)
    refine settles_check fun _ _ => settles_check fun _ _ => ?_
    exact rest first others (holds first List.mem_cons_self) others_hold

/-- The last operands taken: each of them was on the stack. -/
theorem clears_takeLast {count : Nat} {f : Vector Value count → Call}
    (rest : ∀ operands : Vector Value count, (∀ v ∈ operands, P v) →
      Settles (Drained P) (f operands)) :
    Clears P (takeLast count >>= f) := by
  unfold takeLast
  simp only [bind_assoc]
  refine clears_drain fun operands holds => ?_
  -- The operands are off the stack before they are counted.
  split
  case isTrue short => exact settles_throw
  case isFalse enough =>
    rw [pure_bind]
    refine rest _ fun v mem => ?_
    obtain ⟨i, rfl⟩ := Vector.mem_ofFn.mp mem
    exact holds _ (List.getElem_mem _)

/-! ## §4 Operators that take all operands -/

section InPlace

variable (stable : Value.Stable P)
include stable

theorem fold_clears (combine : Number → Number → Number) : Clears P (Operator.fold combine) := by
  refine clears_drainChecked fun first others holds _ => ?_
  refine onResult_settles (Writes.settles (writes_bind (writes_set holds) fun _ => ?_))
  refine writes_forM fun operand _ => writes_modify fun v kept => ?_
  exact stable.setNumber _ _ (stable.promote v _ kept)

theorem concat_clears : Clears P Operator.concat :=
  clears_drainChecked fun _ _ _ _ =>
    onResult_settles (writes_modify fun v => stable.setText v _ _ _).settles

end InPlace

/-- Going through the operands, the best so far is always one of them. -/
theorem best_keeps (wanted : Ordering) {first : Value} {others : List Value} (holds : P first)
    (others_hold : ∀ v ∈ others, P v) : P (others.foldl (Operator.better wanted) first) := by
  induction others generalizing first with
  | nil => exact holds
  | cons operand others ih =>
    have better := Operator.better_keeps wanted holds (others_hold operand List.mem_cons_self)
    exact ih better fun v mem => others_hold v (List.mem_cons_of_mem operand mem)

theorem extreme_clears (wanted : Ordering) : Clears P (Operator.extreme wanted) :=
  clears_drainChecked fun _ _ holds others_hold =>
    onResult_settles (writes_set (best_keeps wanted holds others_hold)).settles

/-- What a place picks is among the operands. -/
theorem mem_of_pick? {place : Int} {inputs : List Value} {input : Value}
    (found : Operator.pick? place inputs = some input) : input ∈ inputs := by
  unfold Operator.pick? at found
  rcases Option.or_eq_some_iff.mp found with atPlace | ⟨_, atEnd⟩
  · exact List.mem_of_getElem? atPlace
  · exact List.mem_of_getLast? atEnd

theorem choose_clears (selector : Value) : Clears P (Operator.choose selector) := by
  unfold Operator.choose
  split
  -- A selector that is no integer: the inputs are dropped all the same.
  case h_1 fault _ => exact clears_flush settles_throw
  case h_2 =>
    refine clears_drain fun operands holds => ?_
    split
    case h_1 input found =>
      exact onResult_settles (writes_set (holds input (mem_of_pick? found))).settles
    case h_2 => exact settles_throw

/-- The inputs are the operands but for the selector, and reversing keeps the members. -/
theorem mem_of_inputs {operands inputs : List Value} {selector v : Value}
    (reversed : operands.reverse = selector :: inputs)
    (mem : v ∈ (OperandStack.ofList inputs.reverse).popOrder) : v ∈ operands := by
  have mem_inputs : v ∈ inputs := by simpa [OperandStack.popOrder_ofList] using mem
  exact List.mem_reverse.mp (reversed ▸ List.mem_cons_of_mem selector mem_inputs)

theorem mux_clears : Clears P Operator.mux := by
  refine clears_drain fun operands holds => ?_
  split
  case h_1 => exact settles_throw
  case h_2 selector inputs reversed =>
    exact withOperands_settles (choose_clears selector) fun v mem =>
      holds v (mem_of_inputs reversed mem)

/-! ## §5 Operators of fixed arity -/

theorem fixed_clears {arity : Nat} {apply : Vector Value arity → Action}
    (settles : ∀ operands : Vector Value arity, (∀ v ∈ operands, P v) →
      Settles P (apply operands)) :
    Clears P (Operator.fixed arity apply).run :=
  clears_takeLast fun operands holds => onResult_settles (settles operands holds)

theorem unary_clears {apply : Value → Action} (settles : ∀ a, P a → Settles P (apply a)) :
    Clears P (Operator.unary apply).run :=
  fixed_clears fun _ holds => settles _ (holds _ (Vector.getElem_mem _))

theorem binary_clears {apply : Value → Value → Action}
    (settles : ∀ a b, P a → P b → Settles P (apply a b)) :
    Clears P (Operator.binary apply).run :=
  fixed_clears fun _ holds =>
    settles _ _ (holds _ (Vector.getElem_mem _)) (holds _ (Vector.getElem_mem _))

theorem ternary_clears {apply : Value → Value → Value → Action}
    (settles : ∀ a b c, P a → P b → P c → Settles P (apply a b c)) :
    Clears P (Operator.ternary apply).run :=
  fixed_clears fun _ holds =>
    settles _ _ _ (holds _ (Vector.getElem_mem _)) (holds _ (Vector.getElem_mem _))
      (holds _ (Vector.getElem_mem _))

theorem quaternary_clears {apply : Value → Value → Value → Value → Action}
    (settles : ∀ a b c d, Settles P (apply a b c d)) :
    Clears P (Operator.quaternary apply).run :=
  fixed_clears fun _ _ => settles _ _ _ _

end Call

end Plc
