import Plc.Clock
import Plc.Literal.Meaning
import Plc.Operator.Numeric
import Plc.Toml.Document

/-!
# Settings

The settings of a controller: how fine its clock is, which types literals take, and what EXPT
computes. They are read from a TOML document in which every key is optional and unknown keys are
ignored.

Main statements:

* `Choices.settings` checks the choices in a fixed order and reports the first one that is invalid.
* `Settings.ofToml` reads the choices from a document.
-/

namespace Plc

/-- The settings of a controller. -/
structure Settings where
  resolution : ClockResolution := .millis
  literals : LiteralProfile := {}
  power : PowerMode := .power
  deriving DecidableEq

/-- Why settings are refused. -/
inductive SettingsFault where
  /-- The text is no document, or a known key has a value of the wrong kind. -/
  | malformed
  /-- A value is not among those that a field admits. -/
  | invalidValue (field : String) (value : List Char)
  deriving DecidableEq

/-- The wording of an invalid value. -/
def SettingsFault.message : SettingsFault → String
  | malformed => "invalid config"
  | invalidValue field value =>
    "invalid config value '" ++ String.ofList value ++ "' for '" ++ field ++ "'"

/-- The words that a document gives for the settings. -/
structure Choices where
  resolution : Option (List Char) := none
  integerType : Option (List Char) := none
  realType : Option (List Char) := none
  bitsType : Option (List Char) := none
  power : Option (List Char) := none

namespace Choices

/-! ## §1 From words to settings -/

/-- The setting that a word names, blanks and letter case set aside. -/
def pick {α : Type} (field : String) (options : List (String × α)) (otherwise : α) :
    Option (List Char) → Except SettingsFault α
  | none => .ok otherwise
  | some word =>
    match options.lookup (String.ofList (Text.lower (Text.trim word))) with
    | some chosen => .ok chosen
    | none => .error (.invalidValue field word)

/-- The type that a word names. An unknown name gives way to the default, but a known type must
belong to the category. -/
def pickType (field : String) (category : Category) (otherwise : DataType) :
    Option (List Char) → Except SettingsFault DataType
  | none => .ok otherwise
  | some word =>
    match DataType.ofName? word with
    | none => .ok otherwise
    | some t => if t.belongs category then .ok t else .error (.invalidValue field word)

/-- The settings that the words choose. -/
def settings (c : Choices) : Except SettingsFault Settings := do
  let resolution ← pick "clock.resolution" [("ms", .millis), ("us", .micros)] .millis c.resolution
  let mode ← pick "arithmetic.expt" [("power", .power), ("legacy-xor", .legacyXor)] .power c.power
  let integerType ← pickType "literals.default_integer" .int .int c.integerType
  let realType ← pickType "literals.default_real" .real .lreal c.realType
  let bitsType ← pickType "literals.default_bits" .integral .int c.bitsType
  return { resolution, literals := { integerType, realType, bitsType }, power := mode }

end Choices

namespace Settings

/-! ## §2 From a document to words -/

/-- The sections of a document, each with its keys. -/
def sections : List (String × List String) :=
  [("clock", ["resolution"]), ("arithmetic", ["expt"]),
    ("literals", ["default_integer", "default_real", "default_bits"])]

/-- The keys of a section, in order. -/
def keysOf (title : String) : List String := (sections.lookup title).getD []

/-- The part of a section or another entry that is read: where an array stands for a section, its
elements beyond the keys are passed over. -/
def used (entry : Toml.Key × Toml.Node) : Toml.Node :=
  match entry.2, sections.lookup (String.ofList entry.1) with
  | .array ofTables items, some keys => .array ofTables (items.take keys.length)
  | node, _ => node

/-- The text under a key of a section. A section may also be an array, whose elements then belong to
the keys in order, or a date, which holds none of them. -/
def textOf? (root : Toml.Entries) (title key : String) : Option (Option (List Char)) :=
  match Toml.Node.find? title.toList root with
  | none => some none
  | some (.table _ entries) => asText? (Toml.Node.find? key.toList entries)
  | some (.array _ items) => asText? items[(keysOf title).idxOf key]?
  | some (.moment _) => some none
  | some _ => none
where
  /-- The characters of a node, which must be text if it is there. -/
  asText? : Option Toml.Node → Option (Option (List Char))
    | none => some none
    | some (.text cs) => some (some cs)
    | some _ => none

/-- The choices of a document. Unknown keys are ignored, but their numbers must have values. -/
def choices? (root : Toml.Entries) : Option Choices := do
  guard (root.all fun entry => (used entry).isValued)
  return {
    resolution := ← textOf? root "clock" "resolution"
    integerType := ← textOf? root "literals" "default_integer"
    realType := ← textOf? root "literals" "default_real"
    bitsType := ← textOf? root "literals" "default_bits"
    power := ← textOf? root "arithmetic" "expt" }

/-- The settings that a document gives. -/
def ofToml (text : List Char) : Except SettingsFault Settings :=
  match (Toml.read? text).bind choices? with
  | some choices => choices.settings
  | none => .error .malformed

end Settings

end Plc
