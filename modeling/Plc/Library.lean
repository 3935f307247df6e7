import Plc.Conversion.Name
import Plc.Operator.BitString
import Plc.Operator.CharString
import Plc.Operator.Numeric
import Plc.Operator.Relation
import Plc.Operator.Selection
import Plc.Operator.TimeSpan

/-!
# The library of operators

Operators are called by name in any ASCII letter case. A name that is not in the library may still be
the name of a conversion; a name that is neither drops the operands all the same.
-/

namespace Plc

/-- A library: operators by upper-case name in order of registration, and the profile under which
conversions read text. -/
structure Library where
  entries : List (List Char × Operator) := []
  profile : LiteralProfile := {}

/-- What a call leaves behind. -/
structure Reply where
  status : Status
  result : Value
  operands : OperandStack

namespace Library

/-! ## §1 Registration -/

/-- The form of a name under which it is kept. -/
def key (name : String) : List Char := Text.upper name.toList

/-- Puts an operator under a key, in the place of the one that is there or at the end. -/
def enter (key : List Char) (operator : Operator) :
    List (List Char × Operator) → List (List Char × Operator)
  | [] => [(key, operator)]
  | entry :: rest =>
    if entry.1 = key then (key, operator) :: rest else entry :: enter key operator rest

/-- Registers an operator under a name. -/
def register (lib : Library) (name : String) (operator : Operator) : Library :=
  { lib with entries := enter (key name) operator lib.entries }

/-- The operator of a name. -/
def find? (lib : Library) (name : String) : Option Operator := lib.entries.lookup (key name)

/-- The names in order of registration. -/
def names (lib : Library) : List String := lib.entries.map fun entry => String.ofList entry.1

/-! ## §2 Calls -/

/-- The conversion with the given name, as an operator. -/
def conversion? (lib : Library) (name : String) : Option Operator :=
  (Conversion.ofName? (key name)).map fun c => .unary (c.apply lib.profile)

/-- What a name does: an operator of the library comes before a conversion. -/
def program (lib : Library) (name : String) : Call :=
  match lib.find? name with
  | some operator => operator.run
  | none =>
    match lib.conversion? name with
    | some conversion => conversion.run
    | none => do
      Call.flush
      throw .elementNotFound

/-- Calls an operator or a conversion by name. -/
def call (lib : Library) (name : String) (result : Value) (operands : OperandStack) : Reply :=
  let frame : Frame := ⟨result, operands⟩
  let left := (lib.program name).final frame
  ⟨(lib.program name).status frame, left.result, left.operands⟩

/-! ## §3 The standard operators -/

open Operator in
/-- The standard operators in order of registration. -/
def standardEntries (mode : PowerMode) : List (String × Operator) :=
  [("ADD", .variadic add), ("MUL", .variadic mul), ("SUB", .binary sub), ("DIV", .binary div),
    ("MOD", .binary mod), ("EXPT", .binary (expt mode)), ("ABS", .unary abs),
    ("SQRT", .unary (ofReal Binary.sqrt)), ("LN", .unary (ofReal Binary.ln)),
    ("LOG", .unary (ofReal Binary.log10)), ("EXP", .unary (ofReal Binary.exp)),
    ("SIN", .unary (ofReal Binary.sin)), ("COS", .unary (ofReal Binary.cos)),
    ("TAN", .unary (ofReal Binary.tan)), ("ASIN", .unary (ofReal Binary.asin)),
    ("ACOS", .unary (ofReal Binary.acos)), ("ATAN", .unary (ofReal Binary.atan)),
    ("ATAN2", .binary atan2),
    ("SHL", .binary (shift .left)), ("SHR", .binary (shift .right)),
    ("ROL", .binary (rotate .left)), ("ROR", .binary (rotate .right)),
    ("AND", .binary bitAnd), ("OR", .binary bitOr), ("XOR", .binary bitXor),
    ("NOT", .unary complement),
    ("GT", .binary (relate .gt)), ("GE", .binary (relate .ge)), ("EQ", .binary (relate .eq)),
    ("LE", .binary (relate .le)), ("LT", .binary (relate .lt)), ("NE", .binary (relate .ne)),
    ("MOVE", .unary move), ("SEL", .ternary sel), ("MAX", .variadic greatest),
    ("MIN", .variadic least),
    ("LIMIT", .ternary fun low value high => limit value low high),
    ("MUX", .variadic mux),
    ("LEN", .unary len), ("LEFT", .binary left), ("RIGHT", .binary right), ("MID", .ternary mid),
    ("CONCAT", .variadic concat), ("INSERT", .ternary insert), ("DELETE", .ternary delete),
    ("REPLACE", .quaternary replace), ("FIND", .binary find),
    ("ADD_TIME", .binary addTime), ("SUB_TIME", .binary subTime), ("MUL_TIME", .binary mulTime),
    ("DIV_TIME", .binary divTime)]

/-- The library of the standard operators. -/
def standard (mode : PowerMode) (profile : LiteralProfile) : Library :=
  (standardEntries mode).foldl (fun lib (name, operator) => lib.register name operator)
    { profile := profile }

end Library

end Plc
