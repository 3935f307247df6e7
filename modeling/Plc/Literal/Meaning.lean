import Plc.Literal.Basic
import Plc.Literal.Moment
import Plc.Value.Basic

/-!
# What a literal denotes

A literal that names its type takes it; any other takes the type that a profile gives for its kind.
The number in the body is narrowed to that type.
-/

namespace Plc

/-- The types of numbers that do not name one. -/
structure LiteralProfile where
  /-- Decimal integers. -/
  integerType : DataType := .int
  /-- Numbers with a point or an exponent. -/
  realType : DataType := .lreal
  /-- Numbers with a radix. -/
  bitsType : DataType := .int
  deriving DecidableEq, Inhabited, Repr

namespace Literal

/-! ## §1 Numbers -/

/-- The least and the greatest integer that a literal may denote before it is narrowed. -/
def leastInteger : Int := -2 ^ 127

def greatestInteger : Int := 2 ^ 127 - 1

/-- The type of a number: the one named in front, or else the given one. It must be a number, a
duration or a bit string. -/
def numericType? (explicit : Option DataType) (otherwise : DataType) : Option DataType :=
  some (explicit.getD otherwise) |>.filter (·.belongsAny [.magnitude, .bit])

/-- A decimal integer of the given type. -/
def integer? (explicit : Option DataType) (otherwise : DataType) (body : List Char) :
    Option Value := do
  let t ← numericType? explicit otherwise
  let n ← Numeral.integerWithin? leastInteger greatestInteger body
  return .ofNumber t (.ofInt n)

/-- A decimal fraction of the given type. -/
def real? (explicit : Option DataType) (otherwise : DataType) (body : List Char) :
    Option Value := do
  let t ← numericType? explicit otherwise
  let x ← Binary.ofChars? body
  return .ofNumber t (.real x)

/-- A number of the given radix and type; it has no sign. -/
def radix? (radix : Nat) (explicit : Option DataType) (otherwise : DataType) (body : List Char) :
    Option Value := do
  let t ← numericType? explicit otherwise
  let n ← Numeral.natural? radix body
  if (n : Int) ≤ greatestInteger then return .ofNumber t (.ofInt n) else none

/-! ## §2 Values -/

/-- A fresh value of a type with a payload of the shape that goes with it. -/
def typed? (t : DataType) (p : Payload) : Option Value := (Value.zero t).setPayload? p

/-- The value of a literal, if its body fits its kind. Durations, dates and times have the type of
their kind. -/
def value? (literal : Literal) (profile : LiteralProfile) : Option Value :=
  let { kind, explicit, body } := literal
  match kind with
  | .boolean => integer? explicit .bool body
  | .integer => integer? explicit profile.integerType body
  | .real | .realExp => real? explicit profile.realType body
  | .base2 => radix? 2 explicit profile.bitsType body
  | .base8 => radix? 8 explicit profile.bitsType body
  | .base16 => radix? 16 explicit profile.bitsType body
  | .duration => (duration? body).map (Value.zero .time).setDuration
  | .date => (date? body).bind fun ticks => typed? .date ⟨.date, .ofInt 64 ticks⟩
  | .timeOfDay => (timeOfDay? body).bind fun ticks => typed? .tod ⟨.tod, .ofInt 64 ticks⟩
  | .dateAndTime => (dateAndTime? body).bind fun ticks => typed? .dt ⟨.dt, .ofInt 64 ticks⟩

/-- The value of a literal that has been taken apart. -/
def materialize (literal : Literal) (profile : LiteralProfile) : Except Fault Value :=
  match literal.value? profile with
  | some v => .ok v
  | none => .error .failed

/-- The value that text denotes under a profile. -/
def parse (text : List Char) (profile : LiteralProfile) : Except Fault Value := do
  (← classify text).materialize profile

end Literal

end Plc
