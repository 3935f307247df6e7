import Plc.Operator.Basic

/-!
# Operators on character strings

Positions count characters from one. Where an operator cuts a string, the result takes the width of
that string and keeps a checksum if the string keeps one.
-/

namespace Plc

namespace Value

/-- The characters of a string; other values have none. -/
def chars (v : Value) : List Char := (v.text?.map CharString.chars).getD []

/-- The text of an operand: the characters of a string, or the one character that a CHAR or WCHAR
stands for. Half of a surrogate pair stands for none. -/
def spelledText (v : Value) : List Char :=
  match v.payload with
  | ⟨.string, s⟩ => s.chars
  | ⟨.char, code⟩ => [Char.ofNat code.toNat]
  | ⟨.wchar, code⟩ => if code.toNat.isValidChar then [Char.ofNat code.toNat] else []
  | _ => []

/-- A count of characters; a negative number counts none. -/
def toCount (v : Value) : Nat := v.toInt.toNat

/-- Stores characters in the result after the model of a string. -/
def setCharsLike (result model : Value) (cs : List Char) : Value :=
  result.setText (String.ofList cs) (model.type = .wstring) (model.text?.any CharString.isHashed)

end Value

namespace Operator

/-- The place of a position among `size` characters, counted from zero. A position must name a
character, but in an empty text every positive one stands for its end. -/
def startOf (position : Int) (size : Nat) : Except Fault Nat :=
  let place := position - 1
  if place < 0 then .error .outOfRange
  -- An empty text has no characters to name, and its end is taken instead.
  else if size ≤ place.toNat ∧ 0 < size then .error .outOfRange
  else .ok (min place.toNat size)

/-- The number of characters, as UDINT. -/
def len (s : Value) : Action := do
  s.require [.string]
  modify (·.retype .udint)
  modify (·.setNumber (.ofInt s.chars.length))

/-- The first `n` characters. -/
def left (s n : Value) : Action := do
  s.require [.string]
  n.require [.int]
  modify (·.setCharsLike s (s.chars.take n.toCount))

/-- The last `n` characters. -/
def right (s n : Value) : Action := do
  s.require [.string]
  n.require [.int]
  modify (·.setCharsLike s (s.chars.drop (s.chars.length - n.toCount)))

/-- `count` characters from a position on. -/
def mid (s count position : Value) : Action := do
  s.require [.string]
  count.require [.int]
  position.require [.int]
  let start ← startOf position.toInt s.chars.length
  modify (·.setCharsLike s ((s.chars.drop start).take count.toCount))

/-- A text put in after the character at a position; position zero puts it in front. -/
def insert (s text position : Value) : Action := do
  s.require [.string]
  text.require [.chars]
  position.require [.int]
  Fault.outOfRange.when (position.toInt < 0 || s.chars.length < position.toInt)
  let place := position.toCount
  modify (·.setCharsLike s (s.chars.take place ++ text.spelledText ++ s.chars.drop place))

/-- The string without `count` characters from a position on. -/
def delete (s count position : Value) : Action := do
  s.require [.string]
  count.require [.int]
  position.require [.int]
  let start ← startOf position.toInt s.chars.length
  modify (·.setCharsLike s (s.chars.take start ++ s.chars.drop (start + count.toCount)))

/-- The string with one character in place of `count` ones from a position on. -/
def replace (s text count position : Value) : Action := do
  s.require [.string]
  text.require [.char]
  count.require [.int]
  position.require [.int]
  let start ← startOf position.toInt s.chars.length
  modify (·.setCharsLike s
    (s.chars.take start ++ text.spelledText ++ s.chars.drop (start + count.toCount)))

/-- The position of the first occurrence of a character, or zero, as INT. -/
def find (s text : Value) : Action := do
  s.require [.string]
  text.require [.char]
  let position := match s.chars.findIdx? fun c => text.spelledText.head? = some c with
    | some place => place + 1
    | none => 0
  modify (·.retype .int)
  modify (·.setNumber (.ofInt position))

/-- All texts one after the other, in the order of pushing. It is wide if one of them is. -/
def concat : Call := do
  let operands ← Call.drainChecked [.string, .char]
  let wide := operands.any fun v => v.type = .wstring || v.type = .wchar
  let text := String.ofList (operands.reverse.flatMap Value.spelledText)
  Call.onResult (modify (·.setText text wide false))

/-- Makes the result a string of the given text. -/
def makeText (content : String) (wide hashed : Bool) : Action :=
  modify (·.setText content wide hashed)

end Operator

end Plc
