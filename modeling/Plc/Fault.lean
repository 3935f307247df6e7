/-!
# Faults

The reasons for which an operator, a literal or a block refuses its input, with the wording and the
numeric code under which each is reported. A call that succeeds has the code zero.
-/

namespace Plc

/-- Why a call failed. -/
inductive Fault where
  /-- An operand is not of an accepted type. -/
  | notAllowedType
  /-- A narrowing lost information. -/
  | truncated
  /-- A value does not fit the target. -/
  | outOfRange
  /-- The target type has no meaning for the operation. -/
  | typeNotDefined
  /-- An operand is missing. -/
  | nullParameter
  | resultTrue
  | resultFalse
  /-- There is no such operator, or no such element. -/
  | elementNotFound
  /-- Any other failure, such as text that is no literal. -/
  | failed
  deriving DecidableEq, Inhabited, Repr

/-- The outcome of a call that yields nothing else. -/
abbrev Status := Except Fault Unit

namespace Fault

def message : Fault → String
  | notAllowedType => "data type not allowed in operation"
  | truncated => "result truncated"
  | outOfRange => "value out of range"
  | typeNotDefined => "data type not defined"
  | nullParameter => "required parameter is missing"
  | resultTrue => "result is true"
  | resultFalse => "result is false"
  | elementNotFound => "element not found"
  | failed => "operation failed"

def code : Fault → UInt8
  | notAllowedType => 0x01
  | truncated => 0x02
  | outOfRange => 0x03
  | typeNotDefined => 0x04
  | nullParameter => 0x05
  | resultTrue => 0x06
  | resultFalse => 0x07
  | elementNotFound => 0x08
  | failed => 0xFF

/-- Stops at the fault if the condition holds. -/
def when (fault : Fault) (condition : Bool) : Status :=
  if condition then .error fault else .ok ()

/-- Stops at the fault if there is nothing. -/
def ifNone {α : Type} (fault : Fault) : Option α → Except Fault α
  | some a => .ok a
  | none => .error fault

end Fault

/-- The code of a whole outcome. -/
def statusCode : Status → UInt8
  | .ok () => 0
  | .error fault => fault.code

end Plc
