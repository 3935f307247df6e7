import Plc.DataType.Basic
import Plc.Fault
import Plc.Text.Split

/-!
# Literals

A literal is text with an optional type in front (`INT#`), an optional mark of its format (`16#`,
`T#`, `DT#`, …) and a body. Without a mark the body decides the kind.

Main statement: `Literal.classify` splits text into these parts; it fails on blank text only.
-/

namespace Plc

/-! ## §1 Kinds -/

/-- The formats of literals. -/
inductive LiteralKind where
  | boolean | integer | real | realExp
  | base2 | base8 | base16
  | duration | date | timeOfDay | dateAndTime
  deriving DecidableEq, Inhabited, Repr

namespace LiteralKind

/-- Every kind, in listing order. -/
def all : List LiteralKind :=
  [boolean, integer, real, realExp, base2, base8, base16, duration, date, timeOfDay, dateAndTime]

/-- The word for a kind. -/
def name : LiteralKind → String
  | boolean => "BOOLEAN"
  | integer => "INTEGER"
  | real => "REAL"
  | realExp => "REAL_EXP"
  | base2 => "BASE2"
  | base8 => "BASE8"
  | base16 => "BASE16"
  | duration => "DURATION"
  | date => "DATE"
  | timeOfDay => "TIME_OF_DAY"
  | dateAndTime => "DATE_AND_TIME"

end LiteralKind

/-- A literal taken apart: its kind, the type in front, and the body. -/
structure Literal where
  kind : LiteralKind
  explicit : Option DataType
  body : List Char
  deriving DecidableEq

namespace Literal

/-! ## §2 Marks -/

/-- The marks of durations, dates and times, a longer one before its own ending. -/
def momentMarks : List (List Char × LiteralKind) :=
  [("DATE_AND_TIME#".toList, .dateAndTime), ("TIME_OF_DAY#".toList, .timeOfDay),
    ("DATE#".toList, .date), ("TIME#".toList, .duration), ("TOD#".toList, .timeOfDay),
    ("DT#".toList, .dateAndTime), ("D#".toList, .date), ("T#".toList, .duration)]

/-- The marks of a radix. -/
def radixMarks : List (List Char × LiteralKind) :=
  [("16#".toList, .base16), ("8#".toList, .base8), ("2#".toList, .base2)]

/-- The kind of the first mark that the text begins with, and the text after the mark. -/
def splitMark? (marks : List (List Char × LiteralKind)) (cs : List Char) :
    Option (LiteralKind × List Char) :=
  marks.findSome? fun (mark, kind) => (mark.isPrefixOf? cs).map fun body => (kind, body)

/-- Takes the type in front of a literal off, if there is one. -/
def splitType (cs : List Char) : Option DataType × List Char :=
  match Text.splitFirst? '#' cs with
  | some (front, after) =>
    match DataType.ofName? front with
    | some t => (some t, after)
    | none => (none, cs)
  | none => (none, cs)

/-! ## §3 Classification -/

/-- The text without underscores. -/
def dropUnderscores (cs : List Char) : List Char := cs.filter (· ≠ '_')

/-- The body of a literal without a mark: a truth value becomes its digit. -/
def plainBody (cs : List Char) : List Char :=
  let body := dropUnderscores cs
  if body = "TRUE".toList then ['1']
  else if body = "FALSE".toList then ['0']
  else body

/-- The kind of a body without a mark. -/
def plainKind (body : List Char) : LiteralKind :=
  if body = ['0'] ∨ body = ['1'] then .boolean
  else if 'E' ∈ body then .realExp
  else if '.' ∈ body then .real
  else .integer

/-- Takes text apart. A mark of a duration, date or time may stand before or after the type. -/
def classify (text : List Char) : Except Fault Literal :=
  let whole := Text.upper (Text.trim text)
  if whole = [] then .error .failed
  else
    match splitMark? momentMarks whole with
    | some (kind, body) => .ok ⟨kind, none, body⟩
    | none =>
      let (explicit, rest) := splitType whole
      match splitMark? momentMarks rest with
      | some (kind, body) => .ok ⟨kind, explicit, body⟩
      | none =>
        match splitMark? radixMarks rest with
        | some (kind, body) => .ok ⟨kind, explicit, dropUnderscores body⟩
        | none =>
          let body := plainBody rest
          .ok ⟨plainKind body, explicit, body⟩

end Literal

end Plc
