import Plc.Conversion.DecimalCode
import Plc.Literal.Meaning
import Plc.Operator.CharString

/-!
# Conversions between types

A value keeps its number when it is converted, narrowed as by any change of type. Strings are read
as literals on the way in and written as decimal text on the way out. Reals can also be truncated
into integers, and unsigned integers coded as decimal digits and back.
-/

namespace Plc

/-! ## §1 Text of a value -/

/-- The decimal text of a number. -/
def Number.toChars : Number → List Char
  | .int n => Numeral.render n.toInt
  | .real x => x.toChars

/-- The text of a value that is no string: a truth value as a word, a duration as a literal of whole
milliseconds, anything else as its number. -/
def Value.toChars (v : Value) : List Char :=
  if v.type.isBoolean then
    if v.isTrue then "TRUE".toList else "FALSE".toList
  else
    match v.duration? with
    | some d => "T#".toList ++ Numeral.render d.millis ++ "ms".toList
    | none => v.number.toChars

/-- The low 64 bits of the integer reading. -/
def Value.bitPattern (v : Value) : DecimalCode.Word := v.number.toWide.setWidth 64

/-! ## §2 Targets -/

namespace DataType

/-- The types to which values are converted. -/
def isTarget : DataType → Bool
  | null | timer | table | user | pointer => false
  | _ => true

/-- How many decimal digits a bit string type codes. -/
def codedDigits? : DataType → Option Nat
  | byte => some 2
  | word => some 4
  | dword => some 8
  | lword => some 16
  | _ => none

end DataType

namespace Operator

/-! ## §3 Conversion by value -/

/-- The value of a text at the given type: the text itself for a string type, else the literal. -/
def ofText (text : CharString) (target : DataType) (profile : LiteralProfile) : Outcome :=
  if target.isCharString then .ok (.ofText text.content (target = .wstring) false)
  else (Literal.parse text.chars profile).map (·.retype target)

/-- A value at the target type: text is read or copied, any other value written as text or retyped. -/
def converted (profile : LiteralProfile) (target : DataType) (a : Value) : Outcome :=
  match a.text? with
  | some text => ofText text target profile
  | none =>
    if target.isCharString then .ok (.ofText (String.ofList a.toChars) (target = .wstring) false)
    else .ok (a.retype target)

/-- Converts a value to the target type, reading text under a profile. The result becomes a copy of
the converted value, whatever it was. -/
def convert (profile : LiteralProfile) (target : DataType) (a : Value) : Action := do
  a.require [.elementary, .char]
  Fault.typeNotDefined.when !target.isTarget
  let value ← converted profile target a
  set value

/-- Truncates a real toward zero and stores the integer at the target type. -/
def truncate (target : DataType) (a : Value) : Action := do
  a.require [.real]
  Fault.typeNotDefined.when !target.belongs .int
  modify (·.retype target)
  modify (·.setNumber (.int a.number.toWide))

/-! ## §4 Decimal coding -/

/-- Codes an unsigned integer in decimal digits. -/
def toBcd (target : DataType) (a : Value) : Action := do
  a.require [.unsigned]
  let digits ← Fault.typeNotDefined.ifNone target.codedDigits?
  let n ← Fault.outOfRange.ifNone (DecimalCode.word? a.toInt)
  let code ← Fault.outOfRange.ifNone (DecimalCode.encode? digits n)
  modify (·.retype target)
  modify (·.setNumber (.ofInt code.toNat))

/-- Decodes decimal digits into an integer. -/
def ofBcd (target : DataType) (a : Value) : Action := do
  let digits ← Fault.notAllowedType.ifNone a.type.codedDigits?
  Fault.typeNotDefined.when !target.belongs .int
  let n ← Fault.outOfRange.ifNone (DecimalCode.decode? digits a.bitPattern)
  modify (·.retype target)
  modify (·.setNumber (.ofInt n.toNat))

/-- Stores whether a bit string is a decimal code. -/
def isBcd (a : Value) : Action := do
  a.require [.bit]
  let digits := (a.type.bitWidth + 3) / 4
  let valid := (DecimalCode.decode? digits a.bitPattern).isSome
  modify (·.retype .bool)
  modify (·.setBool valid)

end Operator

end Plc
