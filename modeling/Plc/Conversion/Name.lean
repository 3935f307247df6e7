import Plc.Conversion.Basic

/-!
# Names of conversions

A conversion is called by a name made of an optional source type, a word for the kind of conversion
and a target type: `TO_LREAL`, `INT_TO_REAL`, `LREAL_TRUNC_DINT`, `WORD_BCD_TO_UINT`.
-/

namespace Plc

/-- The kinds of conversion. -/
inductive ConversionKind where
  | ofBcd | toBcd | truncate | convert
  deriving DecidableEq, Inhabited, Repr

/-- A conversion to a target type, from one source type or from any. -/
structure Conversion where
  source : Option DataType
  kind : ConversionKind
  target : DataType
  deriving DecidableEq

namespace ConversionKind

/-- The words for the kinds of conversion, in the order in which they are looked for. -/
def words : List (List Char × ConversionKind) :=
  [("BCD_TO_".toList, ofBcd), ("TO_BCD_".toList, toBcd), ("TRUNC_".toList, truncate),
    ("TO_".toList, convert)]

/-- The conversion that a kind stands for. -/
def apply (profile : LiteralProfile) : ConversionKind → DataType → Value → Action
  | ofBcd => Operator.ofBcd
  | toBcd => Operator.toBcd
  | truncate => Operator.truncate
  | convert => Operator.convert profile

end ConversionKind

namespace Conversion

/-- Cuts a name at the first word that it begins with or contains after an underscore: the source,
if the word does not come first, and the target. -/
def splitName? (name : List Char) : Option (Option (List Char) × ConversionKind × List Char) :=
  ConversionKind.words.findSome? fun (word, kind) =>
    match word.isPrefixOf? name with
    | some target => some (none, kind, target)
    | none =>
      (Text.splitAtWord? ('_' :: word) name).map fun (source, target) => (some source, kind, target)

/-- Reads the name of a conversion, given in upper case. -/
def ofName? (name : List Char) : Option Conversion :=
  match splitName? name with
  | none => none
  | some (none, kind, target) => (DataType.ofName? target).map fun t => ⟨none, kind, t⟩
  | some (some source, kind, target) => do
    let t ← DataType.ofName? target
    let s ← DataType.ofName? source
    return ⟨some s, kind, t⟩

/-- Passes if there is no source type or the operand has it. -/
def requireSource (source : Option DataType) (a : Value) : Status :=
  match source with
  | some t => a.requireType t
  | none => .ok ()

/-- Converts one operand, which must have the source type if there is one. -/
def apply (c : Conversion) (profile : LiteralProfile) (a : Value) : Action := do
  requireSource c.source a
  c.kind.apply profile c.target a

end Conversion

end Plc
