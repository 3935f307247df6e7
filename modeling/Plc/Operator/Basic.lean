import Plc.Operator.Stack
import Plc.Program

/-!
# Operators

An operator takes its operands off a stack and writes its result into a container of the caller.
Operators of fixed arity see the operands pushed last, in the order of pushing; the others see all of
them in the order in which they are popped.

A call takes the operands off the stack first and writes to the result last.
-/

namespace Plc

/-- A new value, or a fault. -/
abbrev Outcome := Except Fault Value

/-! ## §1 Guards -/

namespace Value

/-- Passes if the value's type belongs to one of the categories. -/
def require (v : Value) (allowed : List Category) : Status :=
  if v.belongsAny allowed then .ok () else .error .notAllowedType

/-- Passes if the value has exactly the given type. -/
def requireType (v : Value) (t : DataType) : Status :=
  if v.type = t then .ok () else .error .notAllowedType

end Value

/-- Passes if an operand is absent or belongs to one of the categories. -/
def requireAny (v : Option Value) (allowed : List Category) : Status :=
  match v with
  | some v => v.require allowed
  | none => .ok ()

/-- Passes if every operand belongs to one of the categories. -/
def requireAll (vs : List Value) (allowed : List Category) : Status :=
  if vs.all (·.belongsAny allowed) then .ok () else .error .notAllowedType

/-! ## §2 Calls -/

/-- What an operator does to the result once it has its operands. -/
abbrev Action := Program Value Unit

/-- The containers of a call. -/
structure Frame where
  result : Value
  operands : OperandStack

/-- What an operator does to the result and the operand stack of its caller. -/
abbrev Call := Program Frame Unit

namespace Call

/-- Empties the stack and gives the operands in the order of popping. -/
def drain : Program Frame (List Value) :=
  modifyGet fun frame => (frame.operands.popOrder, { frame with operands := .empty })

/-- Drops all operands. -/
def flush : Call := modify fun frame => { frame with operands := .empty }

/-- Empties the stack and gives the operands in the order of popping. There must be one, and all must
belong to one of the categories. -/
def drainChecked (allowed : List Category) : Program Frame (List Value) := do
  let operands ← drain
  Fault.nullParameter.when operands.isEmpty
  requireAll operands allowed
  return operands

/-- Empties the stack and gives the operands pushed last, in the order of pushing. What lies below
them is dropped. -/
def takeLast (count : Nat) : Program Frame (Vector Value count) := do
  let operands ← drain
  if short : operands.length < count then throw .nullParameter
  else return .ofFn fun i => operands[count - 1 - i.val]

/-- Writes to the result only. -/
def onResult (action : Action) : Call := fun frame =>
  match action frame.result with
  | .ok _ result => .ok () { frame with result := result }
  | .error fault result => .error fault { frame with result := result }

/-- Runs a call on operands of its own, with the result of the caller. -/
def withOperands (operands : OperandStack) (call : Call) : Call := fun frame =>
  match call { frame with operands := operands } with
  | .ok _ inner => .ok () { frame with result := inner.result }
  | .error fault inner => .error fault { frame with result := inner.result }

end Call

/-! ## §3 Operators by arity -/

/-- An operator. -/
inductive Operator where
  | fixed (arity : Nat) (apply : Vector Value arity → Action)
  | variadic (call : Call)

namespace Operator

def unary (apply : Value → Action) : Operator := fixed 1 fun v => apply v[0]

def binary (apply : Value → Value → Action) : Operator := fixed 2 fun v => apply v[0] v[1]

def ternary (apply : Value → Value → Value → Action) : Operator :=
  fixed 3 fun v => apply v[0] v[1] v[2]

def quaternary (apply : Value → Value → Value → Value → Action) : Operator :=
  fixed 4 fun v => apply v[0] v[1] v[2] v[3]

/-- Applies an operator to the operands on the stack. -/
def run : Operator → Call
  | fixed arity apply => do
    let operands ← Call.takeLast arity
    Call.onResult (apply operands)
  | variadic call => call

end Operator

end Plc
