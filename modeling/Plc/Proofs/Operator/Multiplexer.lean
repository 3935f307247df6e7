import Plc.Proofs.Library.Dispatch
import Plc.Proofs.Value.Word

/-!
# The multiplexer

An integer selects one of several inputs, which are counted from zero. A selector beyond either end of them
selects the input at that end.

There are two ways to call it. By name, the selector is the operand pushed first, and the inputs are counted
in the order in which they were pushed after it. With the selector apart, the stack holds nothing but the
inputs, and they are counted in the order of popping, so from the other end. The first way comes down to the
second: the inputs are pushed once more, the last one first.

Main statements:

* `Operator.pick?_eq_getElem?`: the place that a selector comes to.
* `Operator.choose_run`, `Operator.mux_run`: the two ways.
* `Library.standard_multiplexes`: what is selected, and what is refused.
-/

namespace Plc

namespace Operator

/-! ## §1 Places -/

/-- The place that a selector comes to among `count` inputs: its own number, held between the first place
and the last one. -/
def heldPlace (k : Int) (count : Nat) : Nat := (max 0 (min k (count - 1))).toNat

theorem heldPlace_lt {count : Nat} (some_input : 0 < count) (k : Int) : heldPlace k count < count := by
  unfold heldPlace
  omega

theorem pick?_eq_getElem? {inputs : List Value} (some_input : inputs ≠ []) (k : Int) :
    pick? k inputs = inputs[heldPlace k inputs.length]? := by
  have positive : 0 < inputs.length := List.length_pos_iff.mpr some_input
  unfold pick?
  by_cases within : k.toNat < inputs.length
  case pos =>
    have place : heldPlace k inputs.length = k.toNat := by
      unfold heldPlace
      omega
    rw [place, List.getElem?_eq_getElem within, Option.some_or]
  case neg =>
    have place : heldPlace k inputs.length = inputs.length - 1 := by
      unfold heldPlace
      omega
    rw [place, List.getElem?_eq_none (Nat.le_of_not_lt within), Option.none_or, List.getLast?_eq_getElem?]

/-! ## §2 The selector apart -/

variable {selector : Value} {inputs : List Value} {fault : Fault}

theorem choose_run_of_fault (refused : selector.require [.int] = .error fault) (frame : Frame) :
    (choose selector).run frame = .error fault ⟨frame.result, .empty⟩ := by
  unfold choose
  rw [refused]
  rfl

/-- Once the selector has passed, all depends on what its place picks. -/
theorem choose_run (passes : selector.require [.int] = .ok ()) (result : Value) (operands : OperandStack) :
    (choose selector).run ⟨result, operands⟩ =
      match pick? selector.toInt operands.popOrder with
      | some chosen => .ok () ⟨chosen, .empty⟩
      | none => .error .nullParameter ⟨result, .empty⟩ := by
  unfold choose
  rw [passes]
  show EStateM.run (match pick? selector.toInt operands.popOrder with
    | some input => Call.onResult (set input)
    | none => throw .nullParameter) ⟨result, .empty⟩ = _
  cases pick? selector.toInt operands.popOrder with
  | some chosen => exact Call.onResult_of_ok .empty rfl
  | none => rfl

/-! ## §3 The selector pushed first -/

/-- The inputs are pushed again, so that the first of them is popped first. -/
theorem mux_run (selector : Value) (inputs : List Value) (result : Value) :
    mux.run ⟨result, .ofList (selector :: inputs)⟩ =
      (Call.withOperands (.ofList inputs.reverse) (choose selector)).run ⟨result, .empty⟩ := by
  have pushed : (OperandStack.ofList (selector :: inputs)).popOrder.reverse = selector :: inputs := by
    rw [OperandStack.popOrder_ofList, List.reverse_reverse]
  simp [mux, Call.drain, EStateM.run_bind, pushed]

theorem mux_run_of_ok {result chosen : Value}
    (run : (choose selector).run ⟨result, .ofList inputs.reverse⟩ = .ok () ⟨chosen, .empty⟩) :
    mux.run ⟨result, .ofList (selector :: inputs)⟩ = .ok () ⟨chosen, .empty⟩ :=
  (mux_run selector inputs result).trans
    (@Call.withOperands_of_ok _ _ ⟨result, .empty⟩ ⟨chosen, .empty⟩ run)

theorem mux_run_of_error {result : Value}
    (run : (choose selector).run ⟨result, .ofList inputs.reverse⟩ = .error fault ⟨result, .empty⟩) :
    mux.run ⟨result, .ofList (selector :: inputs)⟩ = .error fault ⟨result, .empty⟩ :=
  (mux_run selector inputs result).trans
    (@Call.withOperands_of_error _ _ ⟨result, .empty⟩ ⟨result, .empty⟩ fault run)

end Operator

/-! ## §4 Both ways -/

namespace Library

open Operator

/-- With the inputs pushed in order, the multiplexer leaves a complete copy of `named` in any container when
it is called by name, and of `apart` when it is called with the selector apart. No operand is left. -/
structure Selects (lib : Library) (selector : Value) (inputs : List Value) (named apart : Value) : Prop where
  named : ∀ result, lib.call "MUX" result (.ofList (selector :: inputs)) = ⟨.ok (), named, .empty⟩
  apart : ∀ result, (choose selector).run ⟨result, .ofList inputs⟩ = .ok () ⟨apart, .empty⟩

/-- Either way, the multiplexer stops at the fault and leaves any container as it was. No operand is left. -/
structure SelectsNone (lib : Library) (selector : Value) (inputs : List Value) (fault : Fault) : Prop where
  named : lib.Refuses "MUX" (selector :: inputs) fault
  apart : ∀ result, (choose selector).run ⟨result, .ofList inputs⟩ = .error fault ⟨result, .empty⟩

variable {lib : Library} {selector : Value} {inputs : List Value} {named apart : Value} {fault : Fault}

theorem find?_mux (mode : PowerMode) (profile : LiteralProfile) :
    (standard mode profile).find? "MUX" = some (.variadic mux) :=
  find?_standard profile (by simp [standardEntries])

variable (found : lib.find? "MUX" = some (.variadic mux))
include found

theorem selects_of_pick? (passes : selector.require [.int] = .ok ())
    (picked : pick? selector.toInt inputs = some named)
    (picked' : pick? selector.toInt inputs.reverse = some apart) :
    lib.Selects selector inputs named apart where
  named result := by
    refine call_of_ok found (mux_run_of_ok ?_)
    rw [choose_run passes, OperandStack.popOrder_ofList, List.reverse_reverse, picked]
  apart result := by
    rw [choose_run passes, OperandStack.popOrder_ofList, picked']

theorem selectsNone_of_nil (passes : selector.require [.int] = .ok ()) :
    lib.SelectsNone selector [] .nullParameter where
  named _ := call_of_error found (mux_run_of_error (choose_run passes _ _))
  apart result := choose_run passes result .empty

theorem selectsNone_of_fault (refused : selector.require [.int] = .error fault) (inputs : List Value) :
    lib.SelectsNone selector inputs fault where
  named _ := call_of_error found (mux_run_of_error (choose_run_of_fault refused _))
  apart result := choose_run_of_fault refused ⟨result, .ofList inputs⟩

omit found

/-- An integer selector, held within the inputs, selects by the order of pushing when the multiplexer is
called by name and by the order of popping when the selector is apart. There must be an input, and a selector
of another type is refused whatever the inputs are. -/
theorem standard_multiplexes (mode : PowerMode) (profile : LiteralProfile) {selector : Value}
    (wf : selector.WellFormed) (inputs : List Value) :
    let lib := standard mode profile
    let place := heldPlace selector.toInt inputs.length
    (selector.type.belongs .int = true → inputs ≠ [] →
      ∃ named apart, inputs[place]? = some named ∧ inputs[inputs.length - 1 - place]? = some apart ∧
        lib.Selects selector inputs named apart) ∧
    (selector.type.belongs .int = true → inputs = [] →
      lib.SelectsNone selector inputs .nullParameter) ∧
    (selector.type.belongs .int = false → lib.SelectsNone selector inputs .notAllowedType) ∧
    lib.Refuses "MUX" [] .nullParameter := by
  intro lib place
  have found : lib.find? "MUX" = some (.variadic mux) := find?_mux mode profile
  have accepts : selector.belongsAny [.int] = selector.type.belongs .int := by
    rw [wf.belongsAny_eq, DataType.belongsAny, List.any_cons, List.any_nil, Bool.or_false]
  refine ⟨fun int some_input => ?_, fun int none => ?_, fun other => ?_, fun _ => ?_⟩
  · have passes : selector.require [.int] = .ok () := if_pos (accepts.trans int)
    have lt : place < inputs.length := heldPlace_lt (List.length_pos_iff.mpr some_input) _
    have lt' : inputs.length - 1 - place < inputs.length := by omega
    have picked := pick?_eq_getElem? some_input selector.toInt
    have picked' := pick?_eq_getElem? (List.reverse_ne_nil_iff.mpr some_input) selector.toInt
    rw [List.length_reverse, List.getElem?_reverse lt] at picked'
    refine ⟨inputs[place], inputs[inputs.length - 1 - place], List.getElem?_eq_getElem lt,
      List.getElem?_eq_getElem lt', ?_⟩
    exact selects_of_pick? found passes (picked.trans (List.getElem?_eq_getElem lt))
      (picked'.trans (List.getElem?_eq_getElem lt'))
  · subst none
    exact selectsNone_of_nil found (if_pos (accepts.trans int))
  · have refused : selector.require [.int] = .error .notAllowedType := if_neg (by simp [accepts, other])
    exact selectsNone_of_fault found refused inputs
  · exact call_of_error found rfl

/-- The greatest ULINT selects the input pushed last by name, and that popped last apart; a negative SINT
does the reverse. A BYTE is no integer, with or without inputs. -/
theorem standard_multiplexes_beyond :
    let lib := standard .power {}
    let most := Value.ofNumber .ulint (.ofInt (2 ^ 64 - 1))
    let minus := Value.ofNumber .sint (.ofInt (-5))
    let text := Value.ofText "in" false true
    let time := Value.ofDuration (.ofMillis 7)
    (most.WellFormed ∧ minus.WellFormed ∧ (Value.zero .byte).WellFormed) ∧
      lib.Selects most [text, time, .null] .null text ∧ lib.Selects minus [text, time, .null] text .null ∧
      lib.SelectsNone most [] .nullParameter ∧ lib.SelectsNone (.zero .byte) [] .notAllowedType := by
  intro lib most minus text time
  have wf : most.WellFormed := (Value.wellFormed_zero .ulint).setNumber _
  have wf' : minus.WellFormed := (Value.wellFormed_zero .sint).setNumber _
  have byte : (Value.zero .byte).WellFormed := Value.wellFormed_zero .byte
  have greatest : heldPlace most.toInt 3 = 2 := by decide +kernel
  have negative : heldPlace minus.toInt 3 = 0 := by decide +kernel
  obtain ⟨select, _, _, _⟩ := standard_multiplexes .power {} wf [text, time, .null]
  obtain ⟨select', _, _, _⟩ := standard_multiplexes .power {} wf' [text, time, .null]
  obtain ⟨last, first, at_last, at_first, selects⟩ := select rfl (List.cons_ne_nil _ _)
  obtain ⟨first', last', at_first', at_last', selects'⟩ := select' rfl (List.cons_ne_nil _ _)
  rw [List.length_cons, List.length_cons, List.length_singleton, greatest] at at_last at_first
  rw [List.length_cons, List.length_cons, List.length_singleton, negative] at at_last' at_first'
  cases at_last
  cases at_first
  cases at_last'
  cases at_first'
  exact ⟨⟨wf, wf', byte⟩, selects, selects', (standard_multiplexes .power {} wf []).2.1 rfl rfl,
    (standard_multiplexes .power {} byte []).2.2.1 rfl⟩

end Library

end Plc
