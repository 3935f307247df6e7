import Plc.Instances

/-!
# Binary-coded decimals

A number of a fixed count of decimal digits, each in four bits of a word, the last digit lowest. A word
with a group of bits above nine codes no number.
-/

namespace Plc.DecimalCode

/-- A word with room for sixteen digits. -/
abbrev Word := BitVec 64

/-- An integer that is a word as it stands, without a sign. -/
def word? (n : Int) : Option Word := if 0 ≤ n ∧ n < 2 ^ 64 then some (.ofInt 64 n) else none

/-! ## §1 Coding -/

/-- What is left of a number, and the code of the digits that were taken off its end. -/
structure Coding where
  rest : Word
  code : Word := 0
  deriving DecidableEq

/-- Takes the last digit off and puts it above the digits that were taken before it. -/
def Coding.next (c : Coding) (place : Nat) : Coding where
  rest := c.rest / 10
  code := c.code ||| (c.rest % 10) <<< (4 * place)

/-- The code of a number of which nothing is left after `digits` digits. -/
def encode? (digits : Nat) (n : Word) : Option Word :=
  let coded := (List.range digits).foldl Coding.next { rest := n }
  if coded.rest = 0 then some coded.code else none

/-! ## §2 Decoding -/

/-- The number that was read, and the weight of the digit to come. -/
structure Decoding where
  number : Word := 0
  weight : Word := 1
  deriving DecidableEq

/-- The group of four bits at a place. -/
def digitAt (bits : Word) (place : Nat) : Word := bits >>> (4 * place) &&& 0xF

/-- Ten times a weight, held at the greatest word. -/
def tenfold (weight : Word) : Word := if weight.toNat * 10 < 2 ^ 64 then weight * 10 else .allOnes 64

/-- Reads the digit at a place, unless the bits there are none. -/
def Decoding.next? (bits : Word) (d : Decoding) (place : Nat) : Option Decoding :=
  if 9 < digitAt bits place then none
  else some { number := d.number + digitAt bits place * d.weight, weight := tenfold d.weight }

/-- The number that the lowest `digits` groups of four bits code. -/
def decode? (digits : Nat) (bits : Word) : Option Word :=
  ((List.range digits).foldlM (Decoding.next? bits) {}).map Decoding.number

end Plc.DecimalCode
