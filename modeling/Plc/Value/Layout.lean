import Plc.DataType.Basic
import Plc.Number
import Plc.Text.Basic
import Plc.Duration

/-!
# Payloads

What a value holds is a *payload*: a *shape*, and content of the layout that the shape has. Every
type has one shape, and nearly every shape one type. All integers, bit strings, characters, dates and
pointers are words, signed or not, of some width. The layout says how content is read as a number and
how a number is stored in it.

Main statements:

* `Layout.number?` is the numeric view of a content; TIME reads as milliseconds.
* `Layout.store?` narrows a number to a layout: integers wrap, reals saturate.
* `Payload.store` never changes the shape.
-/

namespace Plc

/-! ## §1 Contents -/

/-- The content of USER: a word and bytes that only the host understands. -/
structure UserRecord where
  word : UInt32 := 0
  data : ByteArray := .empty
  deriving DecidableEq

/-- The content of TIMER, shared by all timer blocks. -/
structure TimerState where
  output : Bool := false
  preset : Duration := .zero
  elapsed : Duration := .zero
  /-- A starting instant is kept in `start`. -/
  running : Bool := false
  start : Duration := .zero
  deriving DecidableEq

/-- The kinds of content. -/
inductive Layout where
  | empty
  | flag
  | word (signed : Bool) (width : Nat)
  | single
  | double
  | duration
  | text
  | bytes
  | record
  | timer
  deriving DecidableEq

namespace Layout

/-- The content that a layout describes. -/
abbrev Carrier : Layout → Type
  | empty => Unit
  | flag => Bool
  | word _ width => BitVec width
  | single => Single
  | double => Double
  | duration => Duration
  | text => CharString
  | bytes => ByteArray
  | record => UserRecord
  | timer => TimerState

/-- The content of a fresh value: zero, false or nothing. -/
def zero : (l : Layout) → l.Carrier
  | empty => ()
  | flag => false
  | word _ _ => 0
  | single => .zero false
  | double => .zero false
  | duration => .zero
  | text => {}
  | bytes => .empty
  | record => {}
  | timer => {}

/-! ## §2 Numbers in and out -/

/-- Nanoseconds in a millisecond, the unit in which TIME reads as a number. -/
def million : Int := 1000000

/-- TIME as a number of milliseconds: an integer if they are whole, else a real. -/
def timeToNumber (d : Duration) : Number :=
  if d.nanos.tmod million = 0 then .ofInt (d.nanos.tdiv million)
  else .real (.ofInt d.nanos / .ofInt million)

/-- A number of milliseconds as TIME. An integer is reduced to 64 bits before it is scaled. -/
def numberToTime : Number → Duration
  | .int millis => .ofMillis (millis.setWidth 64).toInt
  | .real millis => .saturate ((millis * .ofInt million).truncate (-2 ^ 63) (2 ^ 63 - 1))

/-- The least integer that a word holds. -/
def wordLeast (signed : Bool) (width : Nat) : Int := if signed then -2 ^ (width - 1) else 0

/-- The greatest integer that a word holds. -/
def wordGreatest (signed : Bool) (width : Nat) : Int :=
  if signed then 2 ^ (width - 1) - 1 else 2 ^ width - 1

/-- The integer that a word stands for, as a wide word. -/
def widen (signed : Bool) {width : Nat} (w : BitVec width) : Wide :=
  if signed then w.signExtend 128 else w.setWidth 128

/-- A number as a word: an integer keeps its low bits, a real goes to the nearest bound that it
passes. -/
def narrow (signed : Bool) (width : Nat) : Number → BitVec width
  | .int n => n.setWidth width
  | .real x => .ofInt width (x.truncate (wordLeast signed width) (wordGreatest signed width))

/-- The numeric view of a content, where there is one. -/
def number? : (l : Layout) → l.Carrier → Option Number
  | flag, on => some (.ofBool on)
  | word signed _, w => some (.int (widen signed w))
  | single, x => some (.real x.convert)
  | double, x => some (.real x)
  | duration, d => some (timeToNumber d)
  | empty, _ | text, _ | bytes, _ | record, _ | timer, _ => none

/-- A number as content, where the layout holds numbers. -/
def store? : (l : Layout) → Number → Option l.Carrier
  | flag, n => some (!n.isZero)
  | word signed width, n => some (narrow signed width n)
  | single, n => some n.toDouble.convert
  | double, n => some n.toDouble
  | duration, n => some (numberToTime n)
  | empty, _ | text, _ | bytes, _ | record, _ | timer, _ => none

/-- The layout holds numbers. -/
def isNumeric : Layout → Bool
  | flag | word _ _ | single | double | duration => true
  | empty | text | bytes | record | timer => false

theorem isSome_number? (l : Layout) (p : l.Carrier) : (l.number? p).isSome = l.isNumeric := by
  cases l <;> rfl

theorem isSome_store? (l : Layout) (n : Number) : (l.store? n).isSome = l.isNumeric := by
  cases l <;> rfl

/-! ## §3 Other views -/

def duration? : (l : Layout) → l.Carrier → Option Duration
  | duration, d => some d
  | _, _ => none

def text? : (l : Layout) → l.Carrier → Option CharString
  | text, s => some s
  | _, _ => none

def timer? : (l : Layout) → l.Carrier → Option TimerState
  | timer, s => some s
  | _, _ => none

instance decidableEqCarrier : (l : Layout) → DecidableEq l.Carrier
  | empty => inferInstanceAs (DecidableEq Unit)
  | flag => inferInstanceAs (DecidableEq Bool)
  | word _ width => inferInstanceAs (DecidableEq (BitVec width))
  | single => inferInstanceAs (DecidableEq Single)
  | double => inferInstanceAs (DecidableEq Double)
  | duration => inferInstanceAs (DecidableEq Duration)
  | text => inferInstanceAs (DecidableEq CharString)
  | bytes => inferInstanceAs (DecidableEq ByteArray)
  | record => inferInstanceAs (DecidableEq UserRecord)
  | timer => inferInstanceAs (DecidableEq TimerState)

/-- The two contents count as equal: reals by value, so that not-a-number differs from itself and
the zeros agree, all else exactly. -/
def agree : (l : Layout) → l.Carrier → l.Carrier → Bool
  | single, x, y => x.compare? y = some .eq
  | double, x, y => x.compare? y = some .eq
  | _, x, y => decide (x = y)

end Layout

/-! ## §4 The shape of a type -/

/-- The shapes of content. No two of them pass for each other, even where they have one layout. -/
inductive Shape where
  | null | bool
  | sint | usint | byte
  | int | uint | word
  | dint | udint | dword
  | lint | ulint | lword
  | real | lreal
  | time | date | tod | dt
  | char | wchar | string
  | pointer | table | user
  | timer
  deriving DecidableEq, Inhabited, Repr

/-- The layout of a shape. -/
def Shape.layout : Shape → Layout
  | null => .empty
  | bool => .flag
  | sint => .word true 8
  | usint | byte | char => .word false 8
  | int => .word true 16
  | uint | word | wchar => .word false 16
  | dint => .word true 32
  | udint | dword => .word false 32
  | lint | date | tod | dt => .word true 64
  | ulint | lword | pointer => .word false 64
  | real => .single
  | lreal => .double
  | time => .duration
  | string => .text
  | table => .bytes
  | user => .record
  | timer => .timer

namespace DataType

/-- The shape of a type: the booleans share one, and so do the two strings. -/
def shape : DataType → Shape
  | null => .null
  | bool | rEdge | fEdge => .bool
  | sint => .sint
  | usint => .usint
  | byte => .byte
  | int => .int
  | uint => .uint
  | word => .word
  | dint => .dint
  | udint => .udint
  | dword => .dword
  | lint => .lint
  | ulint => .ulint
  | lword => .lword
  | real => .real
  | lreal => .lreal
  | time => .time
  | date => .date
  | tod => .tod
  | dt => .dt
  | char => .char
  | wchar => .wchar
  | string | wstring => .string
  | pointer => .pointer
  | table => .table
  | user => .user
  | timer => .timer

/-- The layout of a type. -/
def layout (t : DataType) : Layout := t.shape.layout

end DataType

/-! ## §5 Payloads -/

/-- What a value holds. -/
structure Payload where
  shape : Shape
  data : shape.layout.Carrier

namespace Payload

/-- The payload of a fresh value: zero, false or nothing. -/
def zero (t : DataType) : Payload where
  shape := t.shape
  data := t.layout.zero

instance : DecidableEq Payload := fun a b =>
  match a, b with
  | ⟨shape, x⟩, ⟨shape', y⟩ =>
    if same : shape = shape' then
      match shape', same, y with
      | _, rfl, y =>
        if contents : x = y then isTrue (by rw [contents])
        else isFalse (by simpa using contents)
    else
      isFalse fun equal => same (congrArg Payload.shape equal)

/-- The numeric view, where there is one. -/
def number? (p : Payload) : Option Number := p.shape.layout.number? p.data

/-- The payload with a number stored in it. A payload without numbers stays as it is. -/
def store (p : Payload) (n : Number) : Payload :=
  match p.shape.layout.store? n with
  | some data => ⟨p.shape, data⟩
  | none => p

def duration? (p : Payload) : Option Duration := p.shape.layout.duration? p.data

def text? (p : Payload) : Option CharString := p.shape.layout.text? p.data

def timer? (p : Payload) : Option TimerState := p.shape.layout.timer? p.data

/-- The two payloads count as equal: one shape, and contents that count as equal. -/
def agree (p q : Payload) : Bool :=
  if same : q.shape = p.shape then
    p.shape.layout.agree p.data (cast (congrArg (fun s : Shape => s.layout.Carrier) same) q.data)
  else
    false

@[simp] theorem shape_zero (t : DataType) : (zero t).shape = t.shape := rfl

@[simp] theorem shape_store (p : Payload) (n : Number) : (p.store n).shape = p.shape := by
  unfold store; split <;> rfl

/-- Storing is seen in the numeric view as the number narrowed, or not at all. -/
theorem number?_store (p : Payload) (n : Number) :
    (p.store n).number? =
      match p.shape.layout.store? n with
      | some data => p.shape.layout.number? data
      | none => p.number? := by
  unfold store; split <;> rfl

end Payload

end Plc
