import Mathlib.Data.Int.Bitwise
import Plc.Proofs.Value.Word

/-!
# Values as patterns of bits

Integers and bit strings are patterns of as many bits as their type is wide, and a boolean is a pattern of
one bit. Seen as integers, signed or not, they are told apart by their bits in two's complement, counted
from the lowest one.

Main statements:

* `Layout.getLsbD_ofInt`: the bits of a word are those of the integer that it stands for.
* `AnyIntegral.holds_setBits`: a pattern that is stored in a value is the pattern of the value.
* `AnyIntegral.alike_of_bits`: two values of one type with one pattern are alike.
-/

namespace Plc

/-! ## §1 Bits of integers -/

namespace Layout

variable {width : Nat} {m n : Int}

theorem getLsbD_ofInt (width : Nat) (n : Int) (i : Nat) :
    (BitVec.ofInt width n).getLsbD i = (decide (i < width) && n.testBit i) := by
  cases n with
  | ofNat n => exact BitVec.getLsbD_ofNat width n i
  | negSucc n =>
    -- A negative integer has the bits that the one mirrored at minus a half has not.
    rw [BitVec.ofInt_negSucc_eq_not_ofNat, BitVec.getLsbD_not, BitVec.getLsbD_ofNat]
    by_cases lt : i < width <;> simp [lt, Int.testBit]

theorem testBit_eq {i : Nat} (lt : i < width) (n : Int) :
    n.testBit i = (BitVec.ofInt width n).getLsbD i := by
  rw [getLsbD_ofInt, decide_eq_true lt, Bool.true_and]

theorem ofInt_eq_iff : BitVec.ofInt width m = BitVec.ofInt width n ↔ m ≡ n [ZMOD 2 ^ width] := by
  rw [← DataType.natCast_two_pow]
  constructor
  · intro same
    have ints := congrArg BitVec.toInt same
    rw [BitVec.toInt_ofInt, BitVec.toInt_ofInt] at ints
    calc m
      _ ≡ m.bmod (2 ^ width) [ZMOD (2 ^ width : Nat)] := Int.bmod_emod.symm
      _ = n.bmod (2 ^ width) := ints
      _ ≡ n [ZMOD (2 ^ width : Nat)] := Int.bmod_emod
  · intro congruent
    apply BitVec.eq_of_toInt_eq
    rw [BitVec.toInt_ofInt, BitVec.toInt_ofInt, ← Int.emod_bmod m, ← Int.emod_bmod n, congruent]

/-- A pattern of one bit is zero where the integer is even. -/
theorem isZero_bit (one : width = 1) (n : Int) :
    (Number.int ((BitVec.ofInt width n).setWidth 128)).isZero = decide (n % 2 = 0) := by
  subst one
  have same : BitVec.ofInt 1 n = BitVec.ofInt 1 (n % 2) := ofInt_eq_iff.mpr (Int.mod_modEq n 2).symm
  rw [same]
  rcases Int.emod_two_eq n with even | odd
  · rw [even]
    decide
  · rw [odd]
    decide

theorem number?_flag {l : Layout} (flag : l = .flag) (data : l.Carrier) :
    ∃ on, l.number? data = some (.ofBool on) := by
  subst flag
  exact ⟨data, rfl⟩

theorem store?_flag {l : Layout} (flag : l = .flag) (n : Number) :
    ∃ data, l.store? n = some data ∧ l.number? data = some (.ofBool (!n.isZero)) := by
  subst flag
  exact ⟨!n.isZero, rfl, rfl⟩

theorem eq_of_number?_flag {l : Layout} (flag : l = .flag) {data data' : l.Carrier}
    (same : l.number? data = l.number? data') : data = data' := by
  subst flag
  have each : ∀ on on' : Bool, Number.ofBool on = .ofBool on' → on = on' := by decide
  exact each data data' (Option.some.inj same)

end Layout

theorem Payload.eq_of_number?_flag {p q : Payload} (shape : p.shape = q.shape)
    (flag : p.shape.layout = .flag) (same : p.number? = q.number?) : p = q := by
  obtain ⟨shape, data⟩ := p
  obtain ⟨shape', data'⟩ := q
  obtain rfl := shape
  exact congrArg (Payload.mk shape) (Layout.eq_of_number?_flag flag same)

/-- A pattern, read without a sign, stands for the integer reduced modulo the width. -/
theorem Number.int_pattern (width : Nat) (n : Int) :
    int ((BitVec.ofInt width n).setWidth 128) = ofInt (n % 2 ^ width) := by
  have positive : ((2 ^ width : Nat) : Int) ≠ 0 :=
    Int.natCast_ne_zero.mpr (Nat.ne_of_gt (Nat.two_pow_pos width))
  have unsigned : ((BitVec.ofInt width n).toNat : Int) = n % 2 ^ width := by
    rw [BitVec.toNat_ofInt, Int.toNat_of_nonneg (Int.emod_nonneg n positive), DataType.natCast_two_pow]
  refine congrArg int (BitVec.eq_of_toInt_eq ?_)
  rw [← unsigned, BitVec.ofInt_natCast, BitVec.ofNat_toNat]

/-! ## §2 Integral values -/

/-- The type is one of words, or a boolean. -/
theorem DataType.isWord_or_isBoolean {t : DataType} (integral : t.belongs .integral = true) :
    t.isBoolean = false ∧ t.IsWord ∨
      t.isBoolean = true ∧ t.layout = .flag ∧ t.isSigned = false ∧ t.bitWidth = 1 := by
  cases t <;> first | exact Or.inl ⟨rfl, rfl⟩ | exact Or.inr ⟨rfl, rfl, rfl, rfl⟩ | cases integral

namespace Value

/-- A well-formed value of an integer type or of a type of bit strings, booleans among them. -/
structure AnyIntegral (v : Value) : Prop where
  wf : v.WellFormed
  integral : v.type.belongs .integral = true

/-- A well-formed boolean. -/
structure Flag (v : Value) : Prop where
  wf : v.WellFormed
  layout : v.type.layout = .flag
  unsigned : v.type.isSigned = false
  width : v.type.bitWidth = 1

theorem AnyInt.anyIntegral {v : Value} (int : v.AnyInt) : v.AnyIntegral := by
  refine ⟨int.wf, ?_⟩
  show (v.type.belongs .int || v.type.isBitString) = true
  rw [int.int]
  rfl

theorem AnyIntegral.word_of_not_isBoolean {v : Value} (integral : v.AnyIntegral)
    (wide : v.type.isBoolean = false) : v.Word := by
  rcases DataType.isWord_or_isBoolean integral.integral with ⟨_, word⟩ | ⟨boolean, _⟩
  · exact ⟨integral.wf, word⟩
  · rw [wide] at boolean
    cases boolean

theorem AnyIntegral.flag_of_isBoolean {v : Value} (integral : v.AnyIntegral)
    (boolean : v.type.isBoolean = true) : v.Flag := by
  rcases DataType.isWord_or_isBoolean integral.integral with ⟨wide, _⟩ | ⟨_, layout, unsigned, width⟩
  · rw [boolean] at wide
    cases wide
  · exact ⟨integral.wf, layout, unsigned, width⟩

theorem AnyIntegral.word_or_flag {v : Value} (integral : v.AnyIntegral) : v.Word ∨ v.Flag := by
  cases boolean : v.type.isBoolean with
  | false => exact Or.inl (integral.word_of_not_isBoolean boolean)
  | true => exact Or.inr (integral.flag_of_isBoolean boolean)

theorem AnyIntegral.ofNumber {t : DataType} (integral : t.belongs .integral = true) (n : Number) :
    (ofNumber t n).AnyIntegral := ⟨(wellFormed_zero t).setNumber n, integral⟩

namespace Flag

variable {v : Value}

theorem payload_layout (flag : v.Flag) : v.payload.shape.layout = .flag :=
  (congrArg Shape.layout flag.wf.shape).trans flag.layout

theorem wrap_eq (flag : v.Flag) (n : Int) : v.type.wrap n = n % 2 := by
  simp [DataType.wrap, flag.unsigned, flag.width]

theorem toInt_of_number? {on : Bool} (found : v.number? = some (.ofBool on)) :
    v.toInt = if on then 1 else 0 := by
  unfold toInt number
  rw [found]
  cases on <;> decide

theorem number?_eq (flag : v.Flag) :
    ∃ on, v.number? = some (.ofBool on) ∧ v.toInt = if on then 1 else 0 := by
  obtain ⟨on, found⟩ := Layout.number?_flag flag.payload_layout v.payload.data
  exact ⟨on, found, toInt_of_number? found⟩

theorem wrap_toInt (flag : v.Flag) : v.type.wrap v.toInt = v.toInt := by
  obtain ⟨on, _, int⟩ := flag.number?_eq
  rw [flag.wrap_eq, int]
  cases on <;> decide

theorem number?_setNumber (flag : v.Flag) (n : Number) :
    (v.setNumber n).number? = some (.ofBool (!n.isZero)) := by
  obtain ⟨data, stored, read⟩ := Layout.store?_flag flag.payload_layout n
  rw [Value.number?_setNumber, Payload.number?_store, stored]
  exact read

theorem isTrue_eq {on : Bool} (found : v.number? = some (.ofBool on)) : v.isTrue = on := by
  unfold isTrue
  rw [found]
  cases on <;> rfl

theorem isTrue_setBool (flag : v.Flag) (on : Bool) : (v.setBool on).isTrue = on := by
  have kept : (!(Number.ofBool on).isZero) = on := by
    cases on <;> rfl
  exact isTrue_eq ((flag.number?_setNumber _).trans (congrArg (some <| Number.ofBool ·) kept))

theorem holds_setBits (flag : v.Flag) (n : Int) :
    (v.setNumber (.int ((BitVec.ofInt v.type.bitWidth n).setWidth 128))).Holds v.type n := by
  refine ⟨flag.wf.setNumber _, rfl, ?_⟩
  rw [toInt_of_number? (flag.number?_setNumber _), Layout.isZero_bit flag.width, flag.wrap_eq]
  rcases Int.emod_two_eq n with even | odd
  · simp [even]
  · simp [odd]

theorem payload_eq {u : Value} (flag : u.Flag) (flag' : v.Flag) (shape : u.payload.shape = v.payload.shape)
    (int : u.toInt = v.toInt) : u.payload = v.payload := by
  obtain ⟨on, found, first⟩ := flag.number?_eq
  obtain ⟨on', found', second⟩ := flag'.number?_eq
  have same : on = on' := by
    rw [first, second] at int
    cases on <;> cases on' <;> simp_all
  exact Payload.eq_of_number?_flag shape flag.payload_layout (found.trans (same ▸ found'.symm))

end Flag

/-- What is turned to BOOL is a boolean. -/
theorem WellFormed.flag_retype {v : Value} (wf : v.WellFormed) : (v.retype .bool).Flag := by
  refine ⟨wf.retype .bool, ?_, ?_, ?_⟩ <;> rw [type_retype] <;> rfl

theorem Word.holds_setBits {v : Value} (word : v.Word) (n : Int) :
    (v.setNumber (.int ((BitVec.ofInt v.type.bitWidth n).setWidth 128))).Holds v.type n := by
  rw [Number.int_pattern]
  exact (word.holds_setNumber _).congr (Int.mod_modEq n _)

namespace AnyIntegral

variable {u v : Value}

theorem wrap_toInt (integral : v.AnyIntegral) : v.type.wrap v.toInt = v.toInt := by
  rcases integral.word_or_flag with word | flag
  · exact word.wrap_toInt
  · exact flag.wrap_toInt

/-- A pattern of bits in a value, read without a sign, is wrapped to the type of the value. -/
theorem holds_setBits (integral : v.AnyIntegral) (n : Int) :
    (v.setNumber (.int ((BitVec.ofInt v.type.bitWidth n).setWidth 128))).Holds v.type n := by
  rcases integral.word_or_flag with word | flag
  · exact word.holds_setBits n
  · exact flag.holds_setBits n

/-- Two integral values of one type that stand for the same integer are alike. -/
theorem alike_of_toInt (integral : u.AnyIntegral) (integral' : v.AnyIntegral) (type : u.type = v.type)
    (int : u.toInt = v.toInt) : u.Alike v := by
  have shape : u.payload.shape = v.payload.shape := by
    rw [integral.wf.shape, integral'.wf.shape, type]
  refine ⟨type, by rw [integral.wf.categories, integral'.wf.categories, type], ?_⟩
  rcases integral.word_or_flag with word | flag
  · have holds : v.Holds u.type u.toInt := by
      rw [int, type]
      exact ⟨integral'.wf, rfl, integral'.wrap_toInt.symm⟩
    exact word.holds_self.payload_eq word.type holds
  · have flag' : v.Flag := ⟨integral'.wf, type ▸ flag.layout, type ▸ flag.unsigned, type ▸ flag.width⟩
    exact flag.payload_eq flag' shape int

/-- An integral value is known from its bits within the width of its type. -/
theorem toInt_of_bits (integral : v.AnyIntegral) {n : Int}
    (bits : ∀ i < v.type.bitWidth, v.toInt.testBit i = n.testBit i) : v.toInt = v.type.wrap n := by
  have patterns : BitVec.ofInt v.type.bitWidth v.toInt = .ofInt _ n := by
    apply BitVec.eq_of_getLsbD_eq
    intro i lt
    rw [← Layout.testBit_eq lt, ← Layout.testBit_eq lt, bits i lt]
  calc v.toInt
    _ = v.type.wrap v.toInt := integral.wrap_toInt.symm
    _ = v.type.wrap n := DataType.wrap_eq_of_modEq (Layout.ofInt_eq_iff.mp patterns)

/-- Two integral values of one type that have the same bits are alike. -/
theorem alike_of_bits (integral : u.AnyIntegral) (integral' : v.AnyIntegral) (type : u.type = v.type)
    (bits : ∀ i < v.type.bitWidth, u.toInt.testBit i = v.toInt.testBit i) : u.Alike v := by
  apply integral.alike_of_toInt integral' type
  rw [integral.toInt_of_bits (type ▸ bits), type, integral'.wrap_toInt]

end AnyIntegral

end Value

end Plc
