import Plc.Proofs.Operator.Shift

/-!
# Bitwise operators

AND, OR and XOR see their operands as integers of one wide word, extended by the sign of their type, and
combine them bit by bit. What is left of the combination depends on the type of the result, which is the
operand type of the higher rank. Among integers and bit strings the higher rank goes with the width, so that
no bit is lost. The two edges outrank them all, though they have one bit only: the combination with an edge
is stored as an edge, which tells no more than whether any bit is set.

Main statements:

* `Operator.bitwise_run`: what is left of a combination, for any operation on bits.
* `Combines.keepsBits_of_low`: nothing is lost where all that an edge would lose is zero.
* `Combines.keepsBits_iff`: an operation that leaves the other bit where one is zero loses nothing exactly
  if what meets an edge is zero or one.
* `Library.standard_combines_bits`: the replies to AND, OR and XOR.
-/

namespace Plc

open Value

/-! ## §1 Types of results -/

namespace DataType

variable {s t : DataType}

/-- R_EDGE or F_EDGE. -/
def isEdge : DataType → Bool
  | rEdge | fEdge => true
  | _ => false

theorem integral_iff : t.belongsAny [.bit, .int] = true ↔ t.belongs .integral = true := by
  cases t <;> decide

theorem integral_wider (integral : s.belongs .integral = true) (integral' : t.belongs .integral = true) :
    (s.wider t).belongs .integral = true := by
  rcases s.wider_eq t with same | same
  · rw [same]
    exact integral
  · rw [same]
    exact integral'

/-- But for the booleans, the higher rank goes with the width. -/
theorem bitWidth_wider (integral : s.belongs .integral = true) (integral' : t.belongs .integral = true)
    (wide : (s.wider t).isBoolean = false) : (s.wider t).bitWidth = max s.bitWidth t.bitWidth := by
  have all_pairs : ∀ s ∈ all, ∀ t ∈ all, s.belongs .integral = true → t.belongs .integral = true →
      (s.wider t).isBoolean = false → (s.wider t).bitWidth = max s.bitWidth t.bitWidth := by
    decide +kernel
  exact all_pairs s s.mem_all t t.mem_all integral integral' wide

/-- The result is a boolean exactly with an edge and among booleans. -/
theorem isBoolean_wider (integral : s.belongs .integral = true) (integral' : t.belongs .integral = true) :
    (s.wider t).isBoolean = (s.isEdge || t.isEdge || (s.isBoolean && t.isBoolean)) := by
  have all_pairs : ∀ s ∈ all, ∀ t ∈ all, s.belongs .integral = true → t.belongs .integral = true →
      (s.wider t).isBoolean = (s.isEdge || t.isEdge || (s.isBoolean && t.isBoolean)) := by
    decide +kernel
  exact all_pairs s s.mem_all t t.mem_all integral integral'

theorem isBoolean_of_isEdge (edge : t.isEdge = true) : t.isBoolean = true := by
  cases t <;> first | rfl | cases edge

end DataType

/-! ## §2 Bits of values -/

namespace Value

/-- Bit `i` of a value, counted from the lowest one. Beyond the width of the type it is the sign. -/
def bit (v : Value) (i : Nat) : Bool := v.toInt.testBit i

/-- The value reads as zero or one. -/
def IsBit (v : Value) : Prop := v.toInt = 0 ∨ v.toInt = 1

variable {u v : Value}

theorem testBit_of_bounds {n : Int} {width i : Nat} (least : -2 ^ width ≤ n) (limit : n < 2 ^ width)
    (le : width ≤ i) : n.testBit i = decide (n < 0) := by
  have power : (2 ^ width : Nat) ≤ 2 ^ i := Nat.pow_le_pow_right Nat.zero_lt_two le
  rw [← DataType.natCast_two_pow] at least limit
  cases n with
  | ofNat m =>
    have small : m < 2 ^ i := Nat.lt_of_lt_of_le (Int.ofNat_lt.mp limit) power
    have nonneg : ¬Int.ofNat m < 0 := Int.not_lt.mpr (Int.natCast_nonneg m)
    rw [decide_eq_false nonneg]
    exact Nat.testBit_lt_two_pow small
  | negSucc m =>
    have small : m < 2 ^ i := by
      rw [Int.negSucc_eq] at least
      omega
    rw [decide_eq_true (Int.negSucc_lt_zero m)]
    show (!m.testBit i) = true
    rw [Nat.testBit_lt_two_pow small]
    rfl

theorem testBit_of_pos {n : Int} (isBit : n = 0 ∨ n = 1) {i : Nat} (pos : 0 < i) : n.testBit i = false := by
  obtain ⟨least, limit, nonneg⟩ : -2 ^ 1 ≤ n ∧ n < 2 ^ 1 ∧ ¬n < 0 := by omega
  rw [testBit_of_bounds least limit pos, decide_eq_false nonneg]

theorem getLsbD_toWide (v : Value) {i : Nat} (lt : i < 128) : v.number.toWide.getLsbD i = v.bit i := by
  have whole : v.number.toWide = BitVec.ofInt 128 v.toInt := BitVec.ofInt_toInt.symm
  unfold bit
  rw [whole, Layout.testBit_eq lt]

theorem IsBit.bit_of_pos (isBit : v.IsBit) {i : Nat} (pos : 0 < i) : v.bit i = false :=
  testBit_of_pos isBit pos

theorem Flag.isBit (flag : v.Flag) : v.IsBit := by
  obtain ⟨on, _, int⟩ := flag.number?_eq
  unfold IsBit
  rw [int]
  cases on <;> decide

/-- A word takes the low bits of the wide word that is stored in it. -/
theorem Word.bit_setNumber (word : v.Word) (x : Plc.Wide) {i : Nat} (lt : i < v.type.bitWidth) :
    (v.setNumber (.int x)).bit i = x.getLsbD i := by
  have lt' : i < 128 := DataType.lt_wide lt
  have whole : Number.int x = .ofInt x.toInt := congrArg Number.int BitVec.ofInt_toInt.symm
  have stored := (word.holds_setNumber x.toInt).modEq
  rw [← whole] at stored
  calc (v.setNumber (.int x)).bit i
    _ = (BitVec.ofInt v.type.bitWidth (v.setNumber (.int x)).toInt).getLsbD i := Layout.testBit_eq lt _
    _ = (BitVec.ofInt v.type.bitWidth x.toInt).getLsbD i := by rw [Layout.ofInt_eq_iff.mpr stored]
    _ = x.toInt.testBit i := (Layout.testBit_eq lt _).symm
    _ = (BitVec.ofInt 128 x.toInt).getLsbD i := Layout.testBit_eq lt' _
    _ = x.getLsbD i := by rw [BitVec.ofInt_toInt]

theorem Flag.setNumber (flag : v.Flag) (n : Number) : (v.setNumber n).Flag :=
  ⟨flag.wf.setNumber n, flag.layout, flag.unsigned, flag.width⟩

/-- A boolean takes no more than whether the number is zero. -/
theorem Flag.toInt_setNumber_eq_zero (flag : v.Flag) (x : Plc.Wide) :
    (v.setNumber (.int x)).toInt = 0 ↔ x = 0 := by
  rw [toInt_of_number? (flag.number?_setNumber (.int x)), ← beq_iff_eq (a := x)]
  show (if !(x == 0) then (1 : Int) else 0) = 0 ↔ _
  cases x == 0 <;> simp

namespace AnyIntegral

theorem toInt_bounds (integral : v.AnyIntegral) :
    -2 ^ v.type.bitWidth ≤ v.toInt ∧ v.toInt < 2 ^ v.type.bitWidth := by
  have positive := Nat.two_pow_pos v.type.bitWidth
  rw [← integral.wrap_toInt, ← DataType.natCast_two_pow]
  unfold DataType.wrap
  split
  · have least := Int.le_bmod (x := v.toInt) positive
    have limit := Int.bmod_lt (x := v.toInt) positive
    omega
  · have nonneg := Int.emod_nonneg v.toInt (Int.natCast_ne_zero.mpr (Nat.ne_of_gt positive))
    have limit := Int.emod_lt_of_pos v.toInt (Int.natCast_pos.mpr positive)
    omega

theorem isBit_of_isBoolean (integral : v.AnyIntegral) (boolean : v.type.isBoolean = true) : v.IsBit :=
  (integral.flag_of_isBoolean boolean).isBit

theorem bit_of_le (integral : v.AnyIntegral) {i : Nat} (le : v.type.bitWidth ≤ i) :
    v.bit i = decide (v.toInt < 0) :=
  testBit_of_bounds integral.toInt_bounds.1 integral.toInt_bounds.2 le

/-- With no bit above the lowest one, the value reads as zero or one. -/
theorem isBit_of_bits (integral : v.AnyIntegral)
    (bits : ∀ i < v.type.bitWidth, 0 < i → v.bit i = false) : v.IsBit := by
  have wrapped : v.toInt = v.type.wrap (if v.bit 0 then 1 else 0) := by
    apply integral.toInt_of_bits
    intro i lt
    rcases Nat.eq_zero_or_pos i with rfl | pos
    · show v.bit 0 = _
      cases v.bit 0 <;> rfl
    · have isBit : (if v.bit 0 then (1 : Int) else 0) = 0 ∨ (if v.bit 0 then (1 : Int) else 0) = 1 := by
        cases v.bit 0 <;> decide
      rw [testBit_of_pos isBit pos]
      exact bits i lt pos
  have all_types : ∀ t ∈ DataType.all, t.belongs .integral = true → t.wrap 0 = 0 ∧ t.wrap 1 = 1 := by
    decide +kernel
  obtain ⟨zero, one⟩ := all_types v.type v.type.mem_all integral.integral
  unfold IsBit
  rw [wrapped]
  split
  · exact Or.inr one
  · exact Or.inl zero

end AnyIntegral

end Value

/-! ## §3 Combinations -/

/-- An operation on wide words that works bit by bit. -/
def BitByBit (combine : Wide → Wide → Wide) (op : Bool → Bool → Bool) : Prop :=
  ∀ x y i, (combine x y).getLsbD i = op (x.getLsbD i) (y.getLsbD i)

namespace BitByBit

variable {combine : Wide → Wide → Wide} {op : Bool → Bool → Bool} {a b : Value}

theorem getLsbD (bitByBit : BitByBit combine op) {i : Nat} (lt : i < 128) :
    (combine a.number.toWide b.number.toWide).getLsbD i = op (a.bit i) (b.bit i) := by
  rw [bitByBit, getLsbD_toWide a lt, getLsbD_toWide b lt]

theorem eq_zero_iff (bitByBit : BitByBit combine op) (integral : a.AnyIntegral)
    (integral' : b.AnyIntegral) :
    combine a.number.toWide b.number.toWide = 0 ↔ ∀ i, op (a.bit i) (b.bit i) = false := by
  constructor
  · intro zero
    have within (i : Nat) (lt : i < 128) : op (a.bit i) (b.bit i) = false := by
      rw [← bitByBit.getLsbD lt, zero]
      exact BitVec.getLsbD_zero
    have width (v : Value) : v.type.bitWidth ≤ 127 := Nat.le_trans v.type.bitWidth_le (by decide)
    intro i
    rcases Nat.lt_or_ge i 128 with lt | ge
    · exact within i lt
    · -- Beyond the wide word there are the signs, which are its highest bits as well.
      have sign := within 127 (by decide)
      rw [integral.bit_of_le (width a), integral'.bit_of_le (width b)] at sign
      rw [integral.bit_of_le (Nat.le_trans (width a) (by omega)),
        integral'.bit_of_le (Nat.le_trans (width b) (by omega)), sign]
  · intro bits
    apply BitVec.eq_of_getLsbD_eq
    intro i lt
    rw [bitByBit.getLsbD lt, bits i]
    exact BitVec.getLsbD_zero.symm

theorem and : BitByBit (· &&& ·) (· && ·) := fun _ _ _ => BitVec.getLsbD_and

theorem or : BitByBit (· ||| ·) (· || ·) := fun _ _ _ => BitVec.getLsbD_or

theorem xor : BitByBit (· ^^^ ·) (· ^^ ·) := fun _ _ _ => BitVec.getLsbD_xor

end BitByBit

namespace Value

/-- The bits of `u` are those of two values combined, at every place within the width of either. -/
def KeepsBits (u : Value) (op : Bool → Bool → Bool) (a b : Value) : Prop :=
  ∀ i < max a.type.bitWidth b.type.bitWidth, u.bit i = op (a.bit i) (b.bit i)

/-- What is left in `u` of two values combined, at the type of the higher rank: all the bits, or, where the
type is a boolean, whether any of them is set. -/
structure Combines (u : Value) (op : Bool → Bool → Bool) (a b : Value) : Prop where
  wf : u.WellFormed
  type : u.type = a.type.wider b.type
  word : u.type.isBoolean = false → u.KeepsBits op a b
  flag : u.type.isBoolean = true → u.IsBit ∧ (u.toInt = 0 ↔ ∀ i, op (a.bit i) (b.bit i) = false)

/-- Where one of two values is an edge, the other one reads as zero or one. -/
structure EdgesMeetBits (a b : Value) : Prop where
  left : a.type.isEdge = true → b.IsBit
  right : b.type.isEdge = true → a.IsBit

namespace Combines

variable {u a b : Value} {op : Bool → Bool → Bool}

theorem isBoolean_iff (combines : u.Combines op a b) (integral : a.AnyIntegral) (integral' : b.AnyIntegral) :
    u.type.isBoolean = true ↔
      a.type.isEdge = true ∨ b.type.isEdge = true ∨ a.type.isBoolean = true ∧ b.type.isBoolean = true := by
  rw [combines.type, DataType.isBoolean_wider integral.integral integral'.integral]
  simp only [Bool.or_eq_true, Bool.and_eq_true, or_assoc]

theorem bit_zero (combines : u.Combines op a b) (boolean : u.type.isBoolean = true)
    (low : ∀ i, 0 < i → op (a.bit i) (b.bit i) = false) : u.bit 0 = op (a.bit 0) (b.bit 0) := by
  obtain ⟨isBit, zero_iff⟩ := combines.flag boolean
  cases lowest : op (a.bit 0) (b.bit 0) with
  | false =>
    have none : ∀ i, op (a.bit i) (b.bit i) = false := by
      intro i
      rcases Nat.eq_zero_or_pos i with rfl | pos
      · exact lowest
      · exact low i pos
    unfold bit
    rw [zero_iff.mpr none]
    rfl
  | true =>
    have one : u.toInt = 1 := by
      apply isBit.resolve_left
      intro zero
      rw [zero_iff.mp zero 0] at lowest
      cases lowest
    unfold bit
    rw [one]
    rfl

/-- A boolean loses nothing if there is nothing above the lowest bit of the combination. -/
theorem keepsBits_of_low (combines : u.Combines op a b)
    (low : u.type.isBoolean = true → ∀ i, 0 < i → op (a.bit i) (b.bit i) = false) :
    u.KeepsBits op a b := by
  cases boolean : u.type.isBoolean with
  | false => exact combines.word boolean
  | true =>
    intro i _
    rcases Nat.eq_zero_or_pos i with rfl | pos
    · exact combines.bit_zero boolean (low boolean)
    · rw [(combines.flag boolean).1.bit_of_pos pos, low boolean i pos]

/-- Two values together have no bits but those that both have. -/
theorem keepsBits_and (combines : u.Combines (· && ·) a b) (integral : a.AnyIntegral)
    (integral' : b.AnyIntegral) : u.KeepsBits (· && ·) a b := by
  apply combines.keepsBits_of_low
  intro boolean i pos
  have left (boolean : a.type.isBoolean = true) : (a.bit i && b.bit i) = false := by
    rw [(integral.isBit_of_isBoolean boolean).bit_of_pos pos, Bool.false_and]
  have right (boolean : b.type.isBoolean = true) : (a.bit i && b.bit i) = false := by
    rw [(integral'.isBit_of_isBoolean boolean).bit_of_pos pos, Bool.and_false]
  rcases (combines.isBoolean_iff integral integral').mp boolean with edge | edge | ⟨boolean, _⟩
  · exact left (DataType.isBoolean_of_isEdge edge)
  · exact right (DataType.isBoolean_of_isEdge edge)
  · exact left boolean

/-- An operation that gives the other bit where one is zero loses what meets an edge but the lowest bit. -/
theorem keepsBits_iff (combines : u.Combines op a b) (integral : a.AnyIntegral) (integral' : b.AnyIntegral)
    (left : ∀ on, op false on = on) (right : ∀ on, op on false = on) :
    u.KeepsBits op a b ↔ a.EdgesMeetBits b := by
  have boolean_iff := combines.isBoolean_iff integral integral'
  constructor
  · intro keeps
    -- An edge has no upper bits, so they are those of what it meets, and the result has none either.
    have lost {i : Nat} (edge : a.type.isEdge = true ∨ b.type.isEdge = true) (pos : 0 < i)
        (lt : i < max a.type.bitWidth b.type.bitWidth) : op (a.bit i) (b.bit i) = false := by
      have boolean : u.type.isBoolean = true := boolean_iff.mpr (edge.imp_right Or.inl)
      rw [← keeps i lt, (combines.flag boolean).1.bit_of_pos pos]
    constructor
    · intro edge
      have isBit := integral.isBit_of_isBoolean (DataType.isBoolean_of_isEdge edge)
      apply integral'.isBit_of_bits
      intro i lt pos
      have other := lost (Or.inl edge) pos (Nat.lt_of_lt_of_le lt (Nat.le_max_right _ _))
      rwa [isBit.bit_of_pos pos, left] at other
    · intro edge
      have isBit := integral'.isBit_of_isBoolean (DataType.isBoolean_of_isEdge edge)
      apply integral.isBit_of_bits
      intro i lt pos
      have other := lost (Or.inr edge) pos (Nat.lt_of_lt_of_le lt (Nat.le_max_left _ _))
      rwa [isBit.bit_of_pos pos, right] at other
  · intro meet
    apply combines.keepsBits_of_low
    intro boolean i pos
    obtain ⟨isBit, isBit'⟩ : a.IsBit ∧ b.IsBit := by
      rcases boolean_iff.mp boolean with edge | edge | ⟨boolean, boolean'⟩
      · exact ⟨integral.isBit_of_isBoolean (DataType.isBoolean_of_isEdge edge), meet.left edge⟩
      · exact ⟨meet.right edge, integral'.isBit_of_isBoolean (DataType.isBoolean_of_isEdge edge)⟩
      · exact ⟨integral.isBit_of_isBoolean boolean, integral'.isBit_of_isBoolean boolean'⟩
    rw [isBit.bit_of_pos pos, isBit'.bit_of_pos pos, left]

end Combines

end Value

/-! ## §4 The operators -/

namespace Operator

variable {combine : Wide → Wide → Wide} {op : Bool → Bool → Bool} {a b result : Value}

theorem require_bits (integral : a.AnyIntegral) : a.require [.bit, .int] = .ok () :=
  integral.wf.require_iff.mpr (DataType.integral_iff.mpr integral.integral)

/-- A container of type NULL takes the type of what is stored in it. -/
theorem anyIntegral_widenTo (null : result.IsNull) {t : DataType} (integral : t.belongs .integral = true) :
    (result.widenTo t).AnyIntegral ∧ (result.widenTo t).type = t := by
  rw [widenTo_of_null null.wf null.type]
  exact ⟨⟨null.wf.retype t, (type_retype result t).symm ▸ integral⟩, type_retype result t⟩

theorem bitwise_run (bitByBit : BitByBit combine op) (integral : a.AnyIntegral) (integral' : b.AnyIntegral)
    (null : result.IsNull) : ∃ u, (bitwise combine a b).run result = .ok () u ∧ u.Combines op a b := by
  have ready := DataType.integral_wider integral.integral integral'.integral
  obtain ⟨container, type⟩ := anyIntegral_widenTo null ready
  unfold bitwise
  rw [Program.run_check_of_ok (require_bits integral), Program.run_check_of_ok (require_bits integral')]
  refine ⟨_, rfl, container.wf.setNumber _, type, ?_, ?_⟩
  · intro wide i lt
    rw [← DataType.bitWidth_wider integral.integral integral'.integral (type ▸ wide), ← type] at lt
    have lt' : i < 128 := DataType.lt_wide lt
    rw [(container.word_of_not_isBoolean wide).bit_setNumber _ lt, bitByBit.getLsbD lt']
  · intro boolean
    have flag := container.flag_of_isBoolean boolean
    exact ⟨(flag.setNumber _).isBit,
      (flag.toInt_setNumber_eq_zero _).trans (bitByBit.eq_zero_iff integral integral')⟩

end Operator

/-! ## §5 Calls by name -/

namespace Library

variable {lib : Library} {a b : Value}

theorem gives_bitwise {name : String} {combine : Wide → Wide → Wide} {op : Bool → Bool → Bool}
    (found : lib.find? name = some (.binary (Operator.bitwise combine))) (bitByBit : BitByBit combine op)
    (integral : a.AnyIntegral) (integral' : b.AnyIntegral) :
    lib.Gives name [a, b] (·.Combines op a b) := by
  intro result null
  obtain ⟨u, run, combines⟩ := Operator.bitwise_run bitByBit integral integral' null
  exact ⟨u, call_binary_of_ok found run, combines⟩

theorem find?_and (mode : PowerMode) (profile : LiteralProfile) :
    (standard mode profile).find? "AND" = some (.binary Operator.bitAnd) :=
  find?_standard profile (by simp [standardEntries])

theorem find?_or (mode : PowerMode) (profile : LiteralProfile) :
    (standard mode profile).find? "OR" = some (.binary Operator.bitOr) :=
  find?_standard profile (by simp [standardEntries])

theorem find?_xor (mode : PowerMode) (profile : LiteralProfile) :
    (standard mode profile).find? "XOR" = some (.binary Operator.bitXor) :=
  find?_standard profile (by simp [standardEntries])

/-- What combining two values bit by bit comes to. -/
structure CombinesBits (lib : Library) (a b : Value) : Prop where
  and : lib.Gives "AND" [a, b] fun u => u.Combines (· && ·) a b ∧ u.KeepsBits (· && ·) a b
  or : lib.Gives "OR" [a, b] fun u =>
    u.Combines (· || ·) a b ∧ (u.KeepsBits (· || ·) a b ↔ a.EdgesMeetBits b)
  xor : lib.Gives "XOR" [a, b] fun u =>
    u.Combines (· ^^ ·) a b ∧ (u.KeepsBits (· ^^ ·) a b ↔ a.EdgesMeetBits b)

/-- AND, OR and XOR of any two integers or bit strings. Bits are lost in an edge only. -/
theorem standard_combines_bits (mode : PowerMode) (profile : LiteralProfile) (integral : a.AnyIntegral)
    (integral' : b.AnyIntegral) : CombinesBits (standard mode profile) a b where
  and := by
    apply gives_mono (gives_bitwise (find?_and mode profile) .and integral integral')
    intro u combines
    exact ⟨combines, combines.keepsBits_and integral integral'⟩
  or := by
    apply gives_mono (gives_bitwise (find?_or mode profile) .or integral integral')
    intro u combines
    exact ⟨combines, combines.keepsBits_iff integral integral' Bool.false_or Bool.or_false⟩
  xor := by
    apply gives_mono (gives_bitwise (find?_xor mode profile) .xor integral integral')
    intro u combines
    exact ⟨combines, combines.keepsBits_iff integral integral' Bool.false_bne Bool.bne_false⟩

/-- A SINT below zero is extended by its sign to the width of a WORD. -/
theorem standard_combines_bits_signed :
    let lib := standard .power {}
    let minus := Value.ofNumber .sint (.ofInt (-2))
    let word := Value.ofNumber .word (.ofInt 1)
    lib.Gives "OR" [minus, word] fun u => u.type = .word ∧ u.bit 15 = true := by
  intro lib minus word
  have combined := standard_combines_bits .power {}
    (.ofNumber (t := .sint) rfl (.ofInt (-2))) (.ofNumber (t := .word) rfl (.ofInt 1))
  apply gives_mono combined.or
  intro u ⟨combines, keeps_iff⟩
  have meet : minus.EdgesMeetBits word := by
    constructor <;> intro edge <;> cases edge
  exact ⟨combines.type, (keeps_iff.mpr meet 15 (by decide)).trans (by decide +kernel)⟩

/-- The upper bits of a BYTE are lost in an R_EDGE, which is of the higher rank and of one bit. -/
theorem or_loses_bits :
    ¬∀ a b : Value, a.AnyIntegral → b.AnyIntegral →
      (standard .power {}).Gives "OR" [a, b] (·.KeepsBits (· || ·) a b) := by
  intro keeps
  have null : Value.null.IsNull := ⟨wellFormed_zero .null, rfl⟩
  obtain ⟨u, reply, kept⟩ := keeps _ _ (.ofNumber (t := .byte) rfl (.ofInt 2))
    (.ofNumber (t := .rEdge) rfl (.ofInt 0)) .null null
  have result : u = ((standard .power {}).call "OR" .null (.ofList
      [.ofNumber .byte (.ofInt 2), .ofNumber .rEdge (.ofInt 0)])).result := by rw [reply]
  have bit := kept 1 (by decide)
  rw [result] at bit
  exact absurd bit (by decide +kernel)

end Library

end Plc
