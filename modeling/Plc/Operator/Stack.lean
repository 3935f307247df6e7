import Plc.Value.Basic

/-!
# The operand stack

Operands wait on a stack until an operator takes them. The view of a stack is the list of its
operands in the order in which they would be popped.
-/

namespace Plc

/-- A stack of operands, the top one first. -/
structure OperandStack where
  popOrder : List Value := []
  deriving DecidableEq, Inhabited

namespace OperandStack

def empty : OperandStack := {}

def isEmpty (s : OperandStack) : Bool := s.popOrder.isEmpty

def size (s : OperandStack) : Nat := s.popOrder.length

def push (s : OperandStack) (v : Value) : OperandStack := ⟨v :: s.popOrder⟩

/-- The top operand. -/
def peek? (s : OperandStack) : Option Value := s.popOrder.head?

/-- The stack without its top operand. -/
def pop (s : OperandStack) : OperandStack := ⟨s.popOrder.tail⟩

/-- Pushes several operands one after the other. -/
def pushAll (s : OperandStack) (vs : List Value) : OperandStack := vs.foldl push s

/-- The stack on which the operands were pushed one after the other. -/
def ofList (vs : List Value) : OperandStack := empty.pushAll vs

theorem popOrder_pushAll (s : OperandStack) (vs : List Value) :
    (s.pushAll vs).popOrder = vs.reverse ++ s.popOrder := by
  induction vs generalizing s with
  | nil => rfl
  | cons v rest ih => simp [pushAll] at ih ⊢; rw [ih]; simp [push]

theorem popOrder_ofList (vs : List Value) : (ofList vs).popOrder = vs.reverse := by
  simp [ofList, popOrder_pushAll, empty]

end OperandStack

end Plc
