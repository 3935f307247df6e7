import Plc.DataType.Category
import Plc.Flag
import Plc.Value.Layout

/-!
# Values

A value carries its type, the categories of the type, a payload, and two sets of flags. The
categories and the payload are kept beside the type and are not tied to it: it is up to the
operations that change the type to change all three.

Main statements:

* `Value.retype` carries a number over to the new type where the old one is a number, a bit string,
  a time or a character; any other content is dropped.
* `Value.promote` retypes only towards a higher rank.
* the flags survive both.
-/

namespace Plc

/-- A typed value with its flags. -/
structure Value where
  type : DataType
  /-- The categories of the type, looked at in place of the type by every check of an operand. -/
  categories : List Category
  payload : Payload
  attributes : Attributes := {}
  state : StateFlags := {}
  deriving DecidableEq

namespace Value

/-! ## §1 Making values -/

/-- The fresh value of a type: zero, with no flag set. -/
def zero (t : DataType) : Value where
  type := t
  categories := t.categories
  payload := .zero t

/-- The value of type NULL. -/
def null : Value := zero .null

instance : Inhabited Value := ⟨null⟩

/-! ## §2 Views -/

/-- One of the kept categories is allowed. -/
def belongsAny (v : Value) (allowed : List Category) : Bool := allowed.any (· ∈ v.categories)

/-- The numeric view of the content. -/
def number? (v : Value) : Option Number := v.payload.number?

/-- The numeric view, zero where there is none. -/
def number (v : Value) : Number := v.number?.getD (.int 0)

/-- A content with a numeric view other than zero. -/
def isTrue (v : Value) : Bool := v.number?.any fun n => !n.isZero

/-- The numeric view as an LREAL value. -/
def toDouble (v : Value) : Double := v.number.toDouble

/-- The integer reading of the numeric view. -/
def toInt (v : Value) : Int := v.number.toWide.toInt

/-- The integer reading, held in the range of LINT. -/
def toLint (v : Value) : Int := max (-2 ^ 63) (min (2 ^ 63 - 1) v.toInt)

def duration? (v : Value) : Option Duration := v.payload.duration?

def text? (v : Value) : Option CharString := v.payload.text?

def timer? (v : Value) : Option TimerState := v.payload.timer?

/-- Retyping carries the number of the value over: that of numbers, bit strings, times and
characters, but neither of dates nor of pointers. -/
def carriesNumber (v : Value) : Bool :=
  v.type.isBoolean || v.belongsAny [.num, .bit, .magnitude, .char]

/-! ## §3 Changing the type -/

/-- The value turned to type `t`: a number that is carried over is narrowed, and otherwise the new
content is zero. -/
def retype (v : Value) (t : DataType) : Value :=
  if t = v.type then v
  else
    let carried := if v.carriesNumber then v.number? else none
    { v with
      type := t
      categories := t.categories
      payload := carried.elim (.zero t) (Payload.zero t).store }

/-- The value retyped if `t` outranks its type; otherwise nothing. -/
def promote? (v : Value) (t : DataType) : Option Value :=
  if v.type.rank < t.rank then some (v.retype t) else none

/-- The value retyped if `t` outranks its type. -/
def promote (v : Value) (t : DataType) : Value := (v.promote? t).getD v

/-- Makes a result ready for a number of type `t`: promoted towards it, or turned to it if the old
content is no number. -/
def widenTo (v : Value) (t : DataType) : Value :=
  if v.number?.isNone then v.retype t else v.promote t

/-! ## §4 Storing -/

/-- Stores a number, narrowed to the payload. A payload without numbers stays as it is. -/
def setNumber (v : Value) (n : Number) : Value := { v with payload := v.payload.store n }

/-- Stores one or zero. -/
def setBool (v : Value) (on : Bool) : Value := v.setNumber (.ofBool on)

/-- Turns the value to STRING, or to WSTRING, with the given characters. -/
def setText (v : Value) (content : String) (wide hashed : Bool) : Value :=
  { v.retype (if wide then .wstring else .string) with
    payload := ⟨.string, .ofString content hashed⟩ }

/-- Turns the value to TIME with the given duration. -/
def setDuration (v : Value) (d : Duration) : Value :=
  { v.retype .time with payload := ⟨.time, d⟩ }

/-- Stores the state of a timer. A payload that is no timer stays as it is. -/
def setTimer (v : Value) (s : TimerState) : Value :=
  match v.timer? with
  | some _ => { v with payload := ⟨.timer, s⟩ }
  | none => v

/-- Takes a payload of the shape that the type of the value has. -/
def setPayload? (v : Value) (p : Payload) : Option Value :=
  if p.shape = (Payload.zero v.type).shape then some { v with payload := p } else none

def setAttribute (v : Value) (which : Attribute) (on : Bool) : Value :=
  { v with attributes := v.attributes.set which on }

def setState (v : Value) (which : StateFlag) (on : Bool) : Value :=
  { v with state := v.state.set which on }

/-- A fresh value holding a number, narrowed to the type. -/
def ofNumber (t : DataType) (n : Number) : Value := (zero t).setNumber n

/-- A fresh STRING, or WSTRING. -/
def ofText (content : String) (wide hashed : Bool) : Value := null.setText content wide hashed

/-- A fresh TIME. -/
def ofDuration (d : Duration) : Value := { zero .time with payload := ⟨.time, d⟩ }

/-! ## §5 What each operation changes -/

@[simp] theorem retype_self (v : Value) : v.retype v.type = v := if_pos rfl

@[simp] theorem type_retype (v : Value) (t : DataType) : (v.retype t).type = t := by
  unfold retype
  split
  case isTrue same => exact same.symm
  case isFalse => rfl

@[simp] theorem attributes_retype (v : Value) (t : DataType) :
    (v.retype t).attributes = v.attributes := by
  unfold retype; split <;> rfl

@[simp] theorem state_retype (v : Value) (t : DataType) : (v.retype t).state = v.state := by
  unfold retype; split <;> rfl

/-- A result made ready is retyped or left as it is. -/
theorem widenTo_eq (v : Value) (t : DataType) : v.widenTo t = v.retype t ∨ v.widenTo t = v := by
  unfold widenTo promote promote?
  split
  case isTrue => exact Or.inl rfl
  case isFalse =>
    split
    case isTrue => exact Or.inl rfl
    case isFalse => exact Or.inr rfl

@[simp] theorem type_setNumber (v : Value) (n : Number) : (v.setNumber n).type = v.type := rfl

@[simp] theorem attributes_setNumber (v : Value) (n : Number) :
    (v.setNumber n).attributes = v.attributes := rfl

@[simp] theorem state_setNumber (v : Value) (n : Number) : (v.setNumber n).state = v.state := rfl

@[simp] theorem number?_setNumber (v : Value) (n : Number) :
    (v.setNumber n).number? = (v.payload.store n).number? := rfl

/-! ## §6 Equality as values -/

/-- Same type, same categories, same flags, and payloads that count as equal. -/
def agrees (a b : Value) : Bool :=
  a.type = b.type && a.categories = b.categories && a.attributes = b.attributes
    && a.state = b.state && a.payload.agree b.payload

end Value

end Plc
