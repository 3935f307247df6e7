import Plc.DataType.Basic
import Plc.Instances

/-!
# Categories of data types

The generic groups ANY_NUM, ANY_BIT and so on that the operators demand of their operands. A type
belongs to any number of them.
-/

namespace Plc

/-- The generic groups of types. -/
inductive Category where
  | num | date | bit | real | string | elementary | magnitude | int | integral
  | unsigned | signed | char | chars
  deriving DecidableEq, Inhabited, Repr

namespace Category

/-- Every category, in the order in which they are listed. -/
def all : List Category :=
  [num, date, bit, real, string, elementary, magnitude, int, integral, unsigned, signed, char,
    chars]

/-- The name of a category without the word ANY. -/
def shortName : Category → String
  | num => "NUM"
  | date => "DATE"
  | bit => "BIT"
  | real => "REAL"
  | string => "STRING"
  | elementary => "ELEMENTARY"
  | magnitude => "MAGNITUDE"
  | int => "INT"
  | integral => "INTEGRAL"
  | unsigned => "UNSIGNED"
  | signed => "SIGNED"
  | char => "CHAR"
  | chars => "CHARS"

/-- The full name of a category. -/
def name (c : Category) : String := "ANY_" ++ c.shortName

/-- The weight of a category in a mask of categories. -/
def weight (c : Category) : Nat := 2 ^ c.ctorIdx

/-- The categories whose weight is in a mask; weights beyond the last category mean nothing. -/
def ofMask (mask : Nat) : List Category := all.filter fun c => mask.testBit c.ctorIdx

/-- The mask of a list of distinct categories. -/
def mask (categories : List Category) : Nat := (categories.map weight).foldr (· + ·) 0

end Category

namespace DataType

/-! ## The disjoint families -/

def isSigned : DataType → Bool
  | sint | int | dint | lint => true
  | _ => false

def isUnsigned : DataType → Bool
  | usint | uint | udint | ulint => true
  | _ => false

def isReal : DataType → Bool
  | real | lreal => true
  | _ => false

/-- Bit strings, a boolean being a string of one bit. -/
def isBitString : DataType → Bool
  | bool | byte | word | dword | lword | rEdge | fEdge => true
  | _ => false

def isDate : DataType → Bool
  | date | tod | dt => true
  | _ => false

def isCharString : DataType → Bool
  | string | wstring => true
  | _ => false

def isCharacter : DataType → Bool
  | char | wchar => true
  | _ => false

/-! ## Membership -/

/-- The type belongs to the category. -/
def belongs (t : DataType) : Category → Bool
  | .signed => t.isSigned
  | .unsigned => t.isUnsigned
  | .int => t.isSigned || t.isUnsigned
  | .real => t.isReal
  | .num => t.isSigned || t.isUnsigned || t.isReal
  | .magnitude => t.isSigned || t.isUnsigned || t.isReal || t = time
  | .bit => t.isBitString
  | .integral => t.isSigned || t.isUnsigned || t.isBitString
  | .date => t.isDate
  | .string => t.isCharString
  | .char => t.isCharacter
  | .chars => t.isCharacter || t.isCharString
  | .elementary =>
    t.isSigned || t.isUnsigned || t.isReal || t = time || t.isBitString || t.isCharacter
      || t.isCharString || t.isDate

/-- The type belongs to one of the categories. -/
def belongsAny (t : DataType) (categories : List Category) : Bool := categories.any t.belongs

/-- The categories to which a type belongs. -/
def categories (t : DataType) : List Category := Category.all.filter t.belongs

end DataType

end Plc
