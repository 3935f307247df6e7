import Plc.Text.Checksum

/-!
# Character strings

The contents of STRING and WSTRING: characters, and their checksum if one was asked for when the
text was made.
-/

namespace Plc

/-- A character string, with the checksum of its UTF-8 form when it is kept. -/
structure CharString where
  content : String := ""
  digest : Option UInt32 := none
  deriving DecidableEq, Inhabited

namespace CharString

/-- A string of the given characters; `hashed` keeps their checksum. -/
def ofString (content : String) (hashed : Bool) : CharString where
  content := content
  digest := if hashed then some (Text.checksum content.toUTF8.toList) else none

/-- The characters, first to last. -/
def chars (s : CharString) : List Char := s.content.toList

/-- The checksum is kept. -/
def isHashed (s : CharString) : Bool := s.digest.isSome

theorem isHashed_ofString (content : String) (hashed : Bool) :
    (ofString content hashed).isHashed = hashed := by cases hashed <;> rfl

end CharString

end Plc
