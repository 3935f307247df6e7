import Plc.Proofs.Operator.Bitwise

/-!
# The Boolean algebra of a type

NOT, AND, OR and XOR are computed on integers of one wide word and narrowed to the type of the operands, and a
boolean is negated by a branch of its own. Within one type none of this shows: every bit of a term of these
operators is the term of the bits. So two terms that agree as terms of booleans come to the same value, at
every integer type and every type of bit strings.

Main statements:

* `Operator.complement_run`: NOT negates every bit, of a word and of a boolean.
* `BitTerm.yields_hasBits`: the bits of a term, by induction on the term.
* `BitTerm.same_of_bit`: every law of booleans is a law of values.
* `Library.standard_boolean_laws`: the laws of a Boolean algebra.
-/

namespace Plc

open Value

/-! ## §1 Values of one type -/

namespace Value

/-- A well-formed value of type `t` with the given bits. -/
structure HasBits (v : Value) (t : DataType) (bits : Nat → Bool) : Prop extends v.OfType t where
  bit : ∀ i < t.bitWidth, v.bit i = bits i

variable {a b u v : Value} {t : DataType} {p q : Nat → Bool}

theorem OfType.anyIntegral (ofType : v.OfType t) (integral : t.belongs .integral = true) : v.AnyIntegral :=
  ⟨ofType.wf, ofType.type.symm ▸ integral⟩

/-- A value is known from its type and its bits. -/
theorem HasBits.alike (first : u.HasBits t p) (second : v.HasBits t p) (integral : t.belongs .integral = true) :
    u.Alike v := by
  apply (first.anyIntegral integral).alike_of_bits (second.anyIntegral integral)
    (first.type.trans second.type.symm)
  intro i lt
  rw [second.type] at lt
  exact (first.bit i lt).trans (second.bit i lt).symm

/-- Two booleans of one type have no bits above the lowest one. -/
theorem Combines.keepsBits_of_type {op : Bool → Bool → Bool} (combines : u.Combines op a b)
    (integral : a.AnyIntegral) (integral' : b.AnyIntegral) (same : b.type = a.type)
    (zero : op false false = false) : u.KeepsBits op a b := by
  apply combines.keepsBits_of_low
  intro boolean i pos
  have type : u.type = a.type := by
    rw [combines.type, same, DataType.wider_self]
  rw [type] at boolean
  have isBit := integral.isBit_of_isBoolean boolean
  have isBit' := integral'.isBit_of_isBoolean (same.symm ▸ boolean)
  rw [isBit.bit_of_pos pos, isBit'.bit_of_pos pos, zero]

theorem Combines.hasBits {op : Bool → Bool → Bool} (combines : u.Combines op a b) (first : a.HasBits t p)
    (second : b.HasBits t q) (integral : t.belongs .integral = true) (zero : op false false = false) :
    u.HasBits t fun i => op (p i) (q i) := by
  have same : b.type = a.type := second.type.trans first.type.symm
  have keeps := combines.keepsBits_of_type (first.anyIntegral integral) (second.anyIntegral integral) same zero
  refine ⟨⟨combines.wf, ?_⟩, ?_⟩
  · rw [combines.type, same, DataType.wider_self, first.type]
  · intro i lt
    rw [keeps i (by rw [first.type, second.type]; omega), first.bit i lt, second.bit i lt]

end Value

/-! ## §2 Complements -/

theorem Value.Flag.bit_zero {v : Value} {on : Bool} (found : v.number? = some (.ofBool on)) : v.bit 0 = on := by
  unfold bit
  rw [Flag.toInt_of_number? found]
  cases on <;> rfl

namespace Operator

variable {a result : Value} {t : DataType} {p : Nat → Bool}

theorem complement_run (bits : a.HasBits t p) (integral : t.belongs .integral = true) (null : result.IsNull) :
    ∃ u, (complement a).run result = .ok () u ∧ u.HasBits t fun i => !p i := by
  have operand := bits.anyIntegral integral
  obtain ⟨container, type⟩ := anyIntegral_widenTo null operand.integral
  rw [bits.type] at container type
  unfold complement
  rw [Program.run_check_of_ok (require_bits operand), bits.type]
  refine ⟨_, rfl, ⟨container.wf.setNumber _, type⟩, ?_⟩
  intro i lt
  rw [← bits.bit i lt]
  cases boolean : t.isBoolean with
  | false =>
    have word := container.word_of_not_isBoolean (type.symm ▸ boolean)
    have lt' : i < 128 := DataType.lt_wide lt
    show ((result.widenTo t).setNumber (.int (~~~a.number.toWide))).bit i = !a.bit i
    rw [word.bit_setNumber _ (type.symm ▸ lt), BitVec.getLsbD_not, getLsbD_toWide a lt', decide_eq_true lt',
      Bool.true_and]
  | true =>
    -- There is one bit only, so that negating the truth value negates all of them.
    have flag := container.flag_of_isBoolean (type.symm ▸ boolean)
    have operand_flag := operand.flag_of_isBoolean (bits.type.symm ▸ boolean)
    obtain ⟨on, found, _⟩ := operand_flag.number?_eq
    obtain rfl : i = 0 := by
      have width : t.bitWidth = 1 := bits.type ▸ operand_flag.width
      omega
    show ((result.widenTo t).setNumber (.ofBool (!a.isTrue))).bit 0 = !a.bit 0
    rw [Flag.bit_zero (flag.number?_setNumber _), Flag.isTrue_eq found, Flag.bit_zero found]
    cases on <;> rfl

end Operator

/-! ## §3 Terms -/

/-- The operators that combine two values bit by bit. -/
inductive Gate where
  | and | or | xor

namespace Gate

/-- The name under which the library has the operator. -/
def name : Gate → String
  | and => "AND"
  | or => "OR"
  | xor => "XOR"

/-- What the operator does to booleans. -/
def op : Gate → Bool → Bool → Bool
  | and => (· && ·)
  | or => (· || ·)
  | xor => (· ^^ ·)

/-- What the operator does to wide words. -/
def combine : Gate → Wide → Wide → Wide
  | and => (· &&& ·)
  | or => (· ||| ·)
  | xor => (· ^^^ ·)

theorem bitByBit : (g : Gate) → BitByBit g.combine g.op
  | and => .and
  | or => .or
  | xor => .xor

theorem op_false_false (g : Gate) : g.op false false = false := by
  cases g <;> rfl

theorem find?_name (mode : PowerMode) (profile : LiteralProfile) (g : Gate) :
    (Library.standard mode profile).find? g.name = some (.binary (Operator.bitwise g.combine)) := by
  cases g with
  | and => exact Library.find?_and mode profile
  | or => exact Library.find?_or mode profile
  | xor => exact Library.find?_xor mode profile

end Gate

/-- Values combined by NOT, AND, OR and XOR. -/
inductive BitTerm where
  | value (v : Value)
  | not (x : BitTerm)
  | gate (g : Gate) (x y : BitTerm)

namespace BitTerm

instance : Coe Value BitTerm := ⟨value⟩

abbrev and (x y : BitTerm) : BitTerm := gate .and x y

abbrev or (x y : BitTerm) : BitTerm := gate .or x y

abbrev xor (x y : BitTerm) : BitTerm := gate .xor x y

/-- All values in the term are of type `t`. -/
def OfType (t : DataType) : BitTerm → Prop
  | value v => v.OfType t
  | not x => x.OfType t
  | gate _ x y => x.OfType t ∧ y.OfType t

/-- Bit `i` of the term, as a term of booleans. -/
def bit (i : Nat) : BitTerm → Bool
  | value v => v.bit i
  | not x => !x.bit i
  | gate g x y => g.op (x.bit i) (y.bit i)

/-- Computed from the inside out, each operator into any container of type NULL, the term comes to a value
with the property. -/
def Yields (lib : Library) : BitTerm → (Value → Prop) → Prop
  | value v, P => P v
  | not x, P => x.Yields lib fun u => lib.Gives "NOT" [u] P
  | gate g x y, P => x.Yields lib fun u => y.Yields lib fun w => lib.Gives g.name [u, w] P

/-- Both terms come to a value of type `t`, and to the same one, flags aside. -/
def Same (lib : Library) (t : DataType) (x y : BitTerm) : Prop :=
  x.Yields lib fun u => y.Yields lib fun w => u.OfType t ∧ w.OfType t ∧ u.Alike w

end BitTerm

namespace Library

variable {lib : Library} {a b : Value} {t : DataType} {p q : Nat → Bool}

theorem gives_not (found : lib.find? "NOT" = some (.unary Operator.complement)) (bits : a.HasBits t p)
    (integral : t.belongs .integral = true) : lib.Gives "NOT" [a] (·.HasBits t fun i => !p i) := by
  intro result null
  obtain ⟨u, run, negated⟩ := Operator.complement_run bits integral null
  exact ⟨u, call_of_ok found (Call.onResult_of_ok .empty run), negated⟩

theorem gives_gate {g : Gate} (found : lib.find? g.name = some (.binary (Operator.bitwise g.combine)))
    (first : a.HasBits t p) (second : b.HasBits t q) (integral : t.belongs .integral = true) :
    lib.Gives g.name [a, b] (·.HasBits t fun i => g.op (p i) (q i)) := by
  apply gives_mono (gives_bitwise found g.bitByBit (first.anyIntegral integral) (second.anyIntegral integral))
  intro u combines
  exact combines.hasBits first second integral g.op_false_false

theorem find?_not (mode : PowerMode) (profile : LiteralProfile) :
    (standard mode profile).find? "NOT" = some (.unary Operator.complement) :=
  find?_standard profile (by simp [standardEntries])

end Library

namespace BitTerm

variable {lib : Library} {x y : BitTerm} {t : DataType}

theorem Yields.mono {P Q : Value → Prop} (yields : x.Yields lib P) (implies : ∀ u, P u → Q u) :
    x.Yields lib Q := by
  induction x generalizing P Q with
  | value v => exact implies v yields
  | not x ih => exact ih yields fun u gives => Library.gives_mono gives implies
  | gate g x y ihx ihy =>
    exact ihx yields fun u yields => ihy yields fun w gives => Library.gives_mono gives implies

/-- Every bit of what a term comes to is the term of the bits. -/
theorem yields_hasBits (mode : PowerMode) (profile : LiteralProfile) (leaves : x.OfType t)
    (integral : t.belongs .integral = true) : x.Yields (.standard mode profile) (·.HasBits t (x.bit ·)) := by
  induction x with
  | value v => exact ⟨leaves, fun _ _ => rfl⟩
  | not x ih =>
    apply (ih leaves).mono
    intro u bits
    exact Library.gives_not (Library.find?_not mode profile) bits integral
  | gate g x y ihx ihy =>
    apply (ihx leaves.1).mono
    intro u first
    apply (ihy leaves.2).mono
    intro w second
    exact Library.gives_gate (g.find?_name mode profile) first second integral

/-- Terms that agree as terms of booleans come to the same value. -/
theorem same_of_bit (mode : PowerMode) (profile : LiteralProfile) (leaves : x.OfType t) (leaves' : y.OfType t)
    (integral : t.belongs .integral = true) (law : ∀ i, x.bit i = y.bit i) :
    Same (.standard mode profile) t x y := by
  apply (yields_hasBits mode profile leaves integral).mono
  intro u first
  apply (yields_hasBits mode profile leaves' integral).mono
  intro w second
  rw [← funext law] at second
  exact ⟨first.toOfType, second.toOfType, first.alike second integral⟩

end BitTerm

/-! ## §4 The laws -/

namespace Library

open BitTerm (Same)

/-- The laws of a Boolean algebra, for values of type `t`. -/
structure BooleanLaws (lib : Library) (t : DataType) (a b c : Value) : Prop where
  not_not : Same lib t (.not (.not a)) a
  /-- De Morgan's laws. -/
  not_and : Same lib t (.not (.and a b)) (.or (.not a) (.not b))
  not_or : Same lib t (.not (.or a b)) (.and (.not a) (.not b))
  /-- AND distributes over OR, on either side. -/
  and_or : Same lib t (.and a (.or b c)) (.or (.and a b) (.and a c))
  or_and : Same lib t (.and (.or a b) c) (.or (.and a c) (.and b c))
  xor_eq : Same lib t (.xor a b) (.or (.and a (.not b)) (.and (.not a) b))
  xor_xor : Same lib t (.xor (.xor a b) b) a

/-- At every type of integers and of bit strings. -/
theorem standard_boolean_laws (mode : PowerMode) (profile : LiteralProfile) {t : DataType}
    (integral : t.belongsAny [.bit, .int] = true) {a b c : Value} (of_a : a.OfType t) (of_b : b.OfType t)
    (of_c : c.OfType t) : BooleanLaws (standard mode profile) t a b c := by
  have same {x y : BitTerm} (leaves : x.OfType t) (leaves' : y.OfType t) (law : ∀ i, x.bit i = y.bit i) :=
    BitTerm.same_of_bit mode profile leaves leaves' (DataType.integral_iff.mp integral) law
  constructor
  case not_not => exact same of_a of_a fun _ => Bool.not_not _
  case not_and => exact same ⟨of_a, of_b⟩ ⟨of_a, of_b⟩ fun _ => Bool.not_and _ _
  case not_or => exact same ⟨of_a, of_b⟩ ⟨of_a, of_b⟩ fun _ => Bool.not_or _ _
  case and_or =>
    exact same ⟨of_a, of_b, of_c⟩ ⟨⟨of_a, of_b⟩, of_a, of_c⟩ fun _ => Bool.and_or_distrib_left _ _ _
  case or_and =>
    exact same ⟨⟨of_a, of_b⟩, of_c⟩ ⟨⟨of_a, of_c⟩, of_b, of_c⟩ fun _ => Bool.and_or_distrib_right _ _ _
  case xor_eq =>
    have law : ∀ p q : Bool, (p ^^ q) = (p && !q || !p && q) := by decide
    exact same ⟨of_a, of_b⟩ ⟨⟨of_a, of_b⟩, of_a, of_b⟩ fun _ => law _ _
  case xor_xor =>
    have law : ∀ p q : Bool, (p ^^ q ^^ q) = p := by decide
    exact same ⟨⟨of_a, of_b⟩, of_b⟩ of_a fun _ => law _ _

/-- The least INT and the greatest one, of which the one has the bits that the other has not. -/
theorem standard_boolean_laws_int :
    let lib := standard .power {}
    let minus := Value.ofNumber .int (.ofInt (-2 ^ 15))
    let most := Value.ofNumber .int (.ofInt (2 ^ 15 - 1))
    BooleanLaws lib .int minus most minus := by
  intro lib minus most
  have ofType (n : Number) : (Value.ofNumber .int n).OfType .int := ⟨(wellFormed_zero .int).setNumber n, rfl⟩
  exact standard_boolean_laws .power {} (by decide) (ofType _) (ofType _) (ofType _)

end Library

end Plc
