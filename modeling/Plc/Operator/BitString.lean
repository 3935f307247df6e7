import Plc.Operator.Basic

/-!
# Operators on bit patterns

Shifts and rotations work within the width of the operand's type; a negative amount goes the other
way. The logical operators work on whole integers, bit by bit, and a boolean is negated as such.
-/

namespace Plc

namespace Operator

/-! ## §1 Shifts and rotations -/

/-- The direction of a shift or rotation by a positive amount. -/
inductive Direction where
  | left | right
  deriving DecidableEq, Inhabited, Repr

/-- The opposite direction. -/
def Direction.flip : Direction → Direction
  | left => right
  | right => left

/-- The direction in which an amount of the given sign goes. -/
def Direction.under (d : Direction) (amount : Int) : Direction :=
  if 0 ≤ amount then d else d.flip

/-- A wide integer shifted. The sign fills from the left, and bits that leave are lost. -/
def shifted (d : Direction) (value : Wide) (amount : Int) : Wide :=
  -- Beyond 128 places a shift changes nothing any more.
  let count := min amount.natAbs 128
  match d.under amount with
  | .left => value <<< count
  | .right => value.sshiftRight count

/-- A bit pattern rotated. -/
def rotated (d : Direction) {width : Nat} (bits : BitVec width) (amount : Int) : BitVec width :=
  match d.under amount with
  | .left => bits.rotateLeft amount.natAbs
  | .right => bits.rotateRight amount.natAbs

/-- Stores the bits of a pattern, read without a sign, at the type of the operand. -/
def storeBits (a : Value) (bits : BitVec a.type.bitWidth) : Action := do
  modify (·.widenTo a.type)
  modify (·.setNumber (.int (bits.setWidth 128)))

def shift (d : Direction) (a amount : Value) : Action := do
  a.require [.integral]
  amount.require [.num]
  storeBits a ((shifted d a.number.toWide amount.toInt).setWidth _)

def rotate (d : Direction) (a amount : Value) : Action := do
  a.require [.integral]
  amount.require [.num]
  storeBits a (rotated d (a.number.toWide.setWidth _) amount.toInt)

/-! ## §2 Logical operators -/

/-- A bitwise combination, at the higher-ranked operand type. -/
def bitwise (combine : Wide → Wide → Wide) (a b : Value) : Action := do
  a.require [.bit, .int]
  b.require [.bit, .int]
  modify (·.widenTo (a.type.wider b.type))
  modify (·.setNumber (.int (combine a.number.toWide b.number.toWide)))

def bitAnd : Value → Value → Action := bitwise (· &&& ·)

def bitOr : Value → Value → Action := bitwise (· ||| ·)

def bitXor : Value → Value → Action := bitwise (· ^^^ ·)

/-- The complement; for a boolean, its negation. -/
def complement (a : Value) : Action := do
  a.require [.bit, .int]
  modify (·.widenTo a.type)
  let negated : Number :=
    if a.type.isBoolean then .ofBool (!a.isTrue) else .int (~~~a.number.toWide)
  modify (·.setNumber negated)

end Operator

end Plc
