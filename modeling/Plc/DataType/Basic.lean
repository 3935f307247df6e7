import Plc.Text.Blank

/-!
# The data types

The catalogue of elementary and derived types: their names, their rank in promotion, and the width
of the bit pattern that shifts, rotations and decimal coding work on.
-/

namespace Plc

/-- The data types, in the order of promotion. -/
inductive DataType where
  | null | bool
  | sint | usint | byte
  | int | uint | word
  | dint | udint | dword
  | lint | ulint | lword
  | real | lreal
  | time | date | tod | dt
  | char | wchar | string | wstring
  | pointer | table | user
  | rEdge | fEdge
  | timer
  deriving DecidableEq, Inhabited, Repr

namespace DataType

/-- Every data type, lowest rank first. -/
def all : List DataType :=
  [null, bool, sint, usint, byte, int, uint, word, dint, udint, dword, lint, ulint, lword, real,
    lreal, time, date, tod, dt, char, wchar, string, wstring, pointer, table, user, rEdge, fEdge,
    timer]

/-- The rank of a type: promotion only ever raises it. -/
def rank (t : DataType) : Nat := t.ctorIdx

theorem all_getElem?_rank (t : DataType) : all[t.rank]? = some t := by cases t <;> rfl

/-- The type of a given rank. -/
def ofRank? (rank : Nat) : Option DataType := all[rank]?

/-- The higher-ranked of two types. -/
def wider (a b : DataType) : DataType := if a.rank < b.rank then b else a

/-- The nominal width in bits, zero where there is no bit pattern of fixed width. -/
def bitWidth : DataType → Nat
  | null | string | wstring | table | user | timer => 0
  | bool | rEdge | fEdge => 1
  | sint | usint | byte | char => 8
  | int | uint | word | wchar => 16
  | dint | udint | dword | real | date | tod => 32
  | lint | ulint | lword | lreal | time | dt | pointer => 64

/-- BOOL and the two booleans that mark an edge. -/
def isBoolean : DataType → Bool
  | bool | rEdge | fEdge => true
  | _ => false

/-! ## Names -/

/-- The name under which a type is written. -/
def name : DataType → String
  | null => "NULL"
  | bool => "BOOL"
  | sint => "SINT"
  | usint => "USINT"
  | byte => "BYTE"
  | int => "INT"
  | uint => "UINT"
  | word => "WORD"
  | dint => "DINT"
  | udint => "UDINT"
  | dword => "DWORD"
  | lint => "LINT"
  | ulint => "ULINT"
  | lword => "LWORD"
  | real => "REAL"
  | lreal => "LREAL"
  | time => "TIME"
  | date => "DATE"
  | tod => "TOD"
  | dt => "DT"
  | char => "CHAR"
  | wchar => "WCHAR"
  | string => "STRING"
  | wstring => "WSTRING"
  | pointer => "POINTER"
  | table => "TABLE"
  | user => "USER"
  | rEdge => "R_EDGE"
  | fEdge => "F_EDGE"
  | timer => "TIMER"

/-- The spellings that are read as a type: the names, and the long forms of two of them. -/
def spellings : List (List Char × DataType) :=
  ("TIME_OF_DAY".toList, tod) :: ("DATE_AND_TIME".toList, dt)
    :: all.map fun t => (t.name.toList, t)

/-- Reads a type name in any letter case, blanks around it left out. -/
def ofName? (cs : List Char) : Option DataType :=
  (spellings.find? fun entry => entry.1 = Text.upper (Text.trim cs)).map (·.2)

theorem ofName?_name (t : DataType) : ofName? t.name.toList = some t := by
  cases t <;> decide +kernel

end DataType

end Plc
