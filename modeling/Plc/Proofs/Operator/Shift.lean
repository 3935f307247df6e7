import Plc.Proofs.Call
import Plc.Proofs.Value.Integral
import Plc.Proofs.Value.TimeSpan

/-!
# Shifts and rotations

A shift by an amount multiplies by a power of two and wraps, and the other way it divides by one and rounds
down. A rotation moves every bit by the amount, around the width of the type. Amounts of any size are
taken, of either sign: a negative one turns the direction, and an amount beyond the width moves everything
out of a shift and goes around in a rotation.

Main statements:

* `setWidth_shifted`: what is left of a shifted wide word, as an integer.
* `getLsbD_rotated`: where the bits of a rotated pattern come from.
* `Value.Rotates.trans`: rotations one after the other add up.
* `Library.standard_shifts`: the replies to SHL, SHR, ROL and ROR.
-/

namespace Plc

open Value

namespace Operator

/-! ## §1 Directions -/

/-- By how many places a shift by the amount moves to the left, less than none being to the right. -/
def Direction.places : Direction → Int → Int
  | left, amount => amount
  | right, amount => -amount

theorem Direction.places_of_left {d : Direction} {amount : Int} (goes : d.under amount = .left) :
    0 ≤ d.places amount ∧ (d.places amount).toNat = amount.natAbs := by
  unfold under at goes
  split at goes
  case isTrue nonneg =>
    cases goes
    simp only [places]
    omega
  case isFalse negative =>
    cases d with
    | left => cases goes
    | right =>
      simp only [places]
      omega

theorem Direction.places_of_right {d : Direction} {amount : Int} (goes : d.under amount = .right) :
    d.places amount ≤ 0 ∧ (-d.places amount).toNat = amount.natAbs := by
  unfold under at goes
  split at goes
  case isTrue nonneg =>
    cases goes
    simp only [places]
    omega
  case isFalse negative =>
    cases d with
    | left =>
      simp only [places]
      omega
    | right => cases goes

/-! ## §2 Shifts -/

/-- An integer times two to a power, rounded down where the power is negative. -/
def timesPower (n places : Int) : Int :=
  if 0 ≤ places then n * 2 ^ places.toNat else n / 2 ^ (-places).toNat

theorem timesPower_of_nonneg {n places : Int} (nonneg : 0 ≤ places) :
    timesPower n places = n * 2 ^ places.toNat := if_pos nonneg

theorem timesPower_of_nonpos {n places : Int} (nonpos : places ≤ 0) :
    timesPower n places = n / 2 ^ (-places).toNat := by
  unfold timesPower
  split
  case isTrue nonneg =>
    have zero : places = 0 := Int.le_antisymm nonpos nonneg
    simp [zero]
  case isFalse => rfl

theorem shiftLeft_eq_ofInt (x : Wide) (count : Nat) :
    x <<< count = BitVec.ofInt 128 (x.toInt * 2 ^ count) := by
  have power : BitVec.twoPow 128 count = BitVec.ofInt 128 (2 ^ count) := by
    apply BitVec.eq_of_toNat_eq
    rw [← DataType.natCast_two_pow, BitVec.ofInt_natCast, BitVec.toNat_twoPow, BitVec.toNat_ofNat]
  rw [BitVec.shiftLeft_eq_mul_twoPow, BitVec.ofInt_mul, BitVec.ofInt_toInt, power]

theorem sshiftRight_eq_ofInt (x : Wide) (count : Nat) :
    x.sshiftRight count = BitVec.ofInt 128 (x.toInt / 2 ^ count) := by
  rw [← DataType.natCast_two_pow, ← Int.shiftRight_eq_div_pow, ← BitVec.toInt_sshiftRight,
    BitVec.ofInt_toInt]

/-- Once everything has moved out to the left, further places make no difference. -/
theorem mul_two_pow_modEq {width count : Nat} (le : width ≤ count) (n : Int) :
    n * 2 ^ count ≡ 0 [ZMOD 2 ^ width] :=
  Int.modEq_zero_iff_dvd.mpr (Dvd.dvd.mul_left (pow_dvd_pow 2 le) n)

/-- Once everything has moved out to the right, only the sign is left. -/
theorem ediv_two_pow_of_le (x : Wide) {count : Nat} (le : 127 ≤ count) :
    x.toInt / 2 ^ count = if 0 ≤ x.toInt then 0 else -1 := by
  have least : -2 ^ 127 ≤ x.toInt := BitVec.le_toInt x
  have most : x.toInt < 2 ^ 127 := BitVec.toInt_lt
  have power : (2 : Int) ^ 127 ≤ 2 ^ count := by
    exact_mod_cast Nat.pow_le_pow_right Nat.zero_lt_two le
  have positive : (0 : Int) < 2 ^ count := Int.lt_of_lt_of_le (by decide) power
  split
  case isTrue nonneg => exact Int.ediv_eq_zero_of_lt nonneg (Int.lt_of_lt_of_le most power)
  case isFalse negative =>
    have mirrored : x.toInt / 2 ^ count = -((-x.toInt - 1) / 2 ^ count + 1) :=
      Int.ediv_of_neg_of_pos (Int.not_le.mp negative) positive
    have rest : (-x.toInt - 1) / 2 ^ count = 0 := Int.ediv_eq_zero_of_lt (by omega) (by omega)
    rw [mirrored, rest]
    rfl

theorem shifted_of_left {d : Direction} {amount : Int} (goes : d.under amount = .left) (x : Wide) :
    shifted d x amount = x <<< min amount.natAbs 128 := by
  unfold shifted
  rw [goes]

theorem shifted_of_right {d : Direction} {amount : Int} (goes : d.under amount = .right) (x : Wide) :
    shifted d x amount = x.sshiftRight (min amount.natAbs 128) := by
  unfold shifted
  rw [goes]

theorem setWidth_shifted {width : Nat} (le : width ≤ 128) (d : Direction) (x : Wide) (amount : Int) :
    (shifted d x amount).setWidth width =
      BitVec.ofInt width (timesPower x.toInt (d.places amount)) := by
  cases goes : d.under amount with
  | left =>
    obtain ⟨nonneg, count⟩ := Direction.places_of_left goes
    rw [shifted_of_left goes, timesPower_of_nonneg nonneg, count, shiftLeft_eq_ofInt,
      Layout.setWidth_ofInt le, Layout.ofInt_eq_iff]
    -- Beyond 128 places the count is cut, and nothing is left of the word either way.
    rcases Nat.le_total amount.natAbs 128 with within | beyond
    · rw [Nat.min_eq_left within]
    · rw [Nat.min_eq_right beyond]
      exact (mul_two_pow_modEq le _).trans (mul_two_pow_modEq (Nat.le_trans le beyond) _).symm
  | right =>
    obtain ⟨nonpos, count⟩ := Direction.places_of_right goes
    rw [shifted_of_right goes, timesPower_of_nonpos nonpos, count, sshiftRight_eq_ofInt,
      Layout.setWidth_ofInt le]
    -- The cut count and the full one both leave the sign.
    rcases Nat.le_total amount.natAbs 128 with within | beyond
    · rw [Nat.min_eq_left within]
    · rw [Nat.min_eq_right beyond, ediv_two_pow_of_le x (by decide),
        ediv_two_pow_of_le x (Nat.le_trans (by decide) beyond)]

/-- To the right by an amount is to the left by its opposite. -/
theorem shifted_right (x : Wide) (amount : Int) :
    shifted .right x amount = shifted .left x (-amount) := by
  unfold shifted Direction.under
  rw [Int.natAbs_neg]
  rcases Int.lt_trichotomy amount 0 with negative | rfl | positive
  · rw [if_neg (by omega), if_pos (by omega)]
    rfl
  · simp
  · rw [if_pos (by omega), if_neg (by omega)]
    rfl

/-! ## §3 Rotations -/

section Rotations

variable {width : Nat} (bits : BitVec width) (count : Nat) {i : Nat} (lt : i < width)
include lt

/-- Only the place of the count within the width matters. -/
theorem getLsbD_rotateLeft :
    (bits.rotateLeft count).getLsbD i = bits.getLsbD (((i : Int) - count) % width).toNat := by
  have around : ((i : Int) - count) % width = ((i : Int) - (count % width : Nat)) % width := by
    rw [Int.natCast_mod]
    exact ((Int.mod_modEq count width).sub_left i).symm
  have within : count % width < width := Nat.mod_lt _ (Nat.zero_lt_of_lt lt)
  rw [BitVec.getLsbD_rotateLeft, around]
  by_cases low : i < count % width
  case pos =>
    have wraps : ((i : Int) - (count % width : Nat)) % width = (width - count % width + i : Nat) := by
      rw [← Int.add_emod_right, Int.emod_eq_of_lt (by omega) (by omega)]
      omega
    simp only [low, decide_true, cond_true, wraps, Int.toNat_natCast]
  case neg =>
    have stays : ((i : Int) - (count % width : Nat)) % width = (i - count % width : Nat) := by
      rw [Int.emod_eq_of_lt (by omega) (by omega)]
      omega
    simp only [low, lt, decide_true, decide_false, cond_false, Bool.true_and, stays, Int.toNat_natCast]

theorem getLsbD_rotateRight :
    (bits.rotateRight count).getLsbD i = bits.getLsbD (((i : Int) + count) % width).toNat := by
  have around : ((i : Int) + count) % width = ((i : Int) + (count % width : Nat)) % width := by
    rw [Int.natCast_mod]
    exact ((Int.mod_modEq count width).add_left i).symm
  have within : count % width < width := Nat.mod_lt _ (Nat.zero_lt_of_lt lt)
  rw [BitVec.getLsbD_rotateRight, around]
  by_cases low : i < width - count % width
  case pos =>
    have stays : ((i : Int) + (count % width : Nat)) % width = (count % width + i : Nat) := by
      rw [Int.emod_eq_of_lt (by omega) (by omega)]
      omega
    simp only [low, decide_true, cond_true, stays, Int.toNat_natCast]
  case neg =>
    have wraps : ((i : Int) + (count % width : Nat)) % width = (i - (width - count % width) : Nat) := by
      rw [← Int.sub_emod_right, Int.emod_eq_of_lt (by omega) (by omega)]
      omega
    simp only [low, lt, decide_true, decide_false, cond_false, Bool.true_and, wraps, Int.toNat_natCast]

end Rotations

theorem getLsbD_rotated (d : Direction) {width : Nat} (bits : BitVec width) (amount : Int) {i : Nat}
    (lt : i < width) : (rotated d bits amount).getLsbD i =
      bits.getLsbD (((i : Int) - d.places amount) % width).toNat := by
  unfold rotated
  cases goes : d.under amount with
  | left =>
    obtain ⟨nonneg, count⟩ := Direction.places_of_left goes
    have places : (amount.natAbs : Int) = d.places amount := by omega
    rw [← places]
    exact getLsbD_rotateLeft bits _ lt
  | right =>
    obtain ⟨nonpos, count⟩ := Direction.places_of_right goes
    have places : (i : Int) - d.places amount = i + amount.natAbs := by omega
    rw [places]
    exact getLsbD_rotateRight bits _ lt

end Operator

/-! ## §4 Rotated values -/

namespace Value

/-- The value has the type of `v`, and its bits are those of `v`, each moved up by the places and around
the width of the type. -/
structure Rotates (u v : Value) (places : Int) : Prop where
  wf : u.WellFormed
  type : u.type = v.type
  bit : ∀ i < v.type.bitWidth,
    u.toInt.testBit i = v.toInt.testBit (((i : Int) - places) % v.type.bitWidth).toNat

namespace Rotates

variable {u v x : Value} {p q : Int}

/-- One rotation after the other moves the bits by the sum of the places. -/
theorem trans (first : u.Rotates v p) (second : x.Rotates u q) : x.Rotates v (p + q) where
  wf := second.wf
  type := second.type.trans first.type
  bit := by
    intro i lt
    have width : u.type.bitWidth = v.type.bitWidth := by rw [first.type]
    have positive : (0 : Int) < v.type.bitWidth := by omega
    have nonneg := Int.emod_nonneg ((i : Int) - q) (Int.ne_of_gt positive)
    have inside := Int.emod_lt_of_pos ((i : Int) - q) positive
    -- The place that the second rotation takes the bit from is looked up in the first one.
    rw [second.bit i (width ▸ lt), width, first.bit _ (by omega), Int.toNat_of_nonneg nonneg]
    have places : (((i : Int) - q) % v.type.bitWidth - p) % v.type.bitWidth =
        ((i : Int) - (p + q)) % v.type.bitWidth := by
      have congruent := (Int.mod_modEq ((i : Int) - q) v.type.bitWidth).sub_right p
      rw [show (i : Int) - (p + q) = i - q - p by omega]
      exact congruent
    rw [places]

theorem anyIntegral (rotates : u.Rotates v p) (integral : v.AnyIntegral) : u.AnyIntegral :=
  ⟨rotates.wf, rotates.type ▸ integral.integral⟩

/-- Nothing has moved. -/
theorem alike (rotates : u.Rotates v 0) (integral : v.AnyIntegral) : u.Alike v := by
  apply (rotates.anyIntegral integral).alike_of_bits integral rotates.type
  intro i lt
  have stays : ((i : Int) - 0) % v.type.bitWidth = i := by
    rw [Int.sub_zero, Int.emod_eq_of_lt (by omega) (by omega)]
  rw [rotates.bit i lt, stays, Int.toNat_natCast]

end Rotates

/-- A well-formed container of type NULL. -/
structure IsNull (v : Value) : Prop where
  wf : v.WellFormed
  type : v.type = .null

end Value

/-! ## §5 The operators -/

namespace Operator

variable {a amount result : Value}

theorem require_integral (integral : a.AnyIntegral) : a.require [.integral] = .ok () :=
  integral.wf.require_iff.mpr (by simp [DataType.belongsAny, integral.integral])

theorem require_amount (int : amount.AnyInt) : amount.require [.num] = .ok () :=
  int.wf.require_iff.mpr (by simp [DataType.belongsAny, int.num])

/-- A stored pattern is that of the result, which takes the type of the operand. -/
theorem storeBits_run (integral : a.AnyIntegral) (null : result.IsNull) (n : Int) :
    ∃ u, (storeBits a (.ofInt _ n)).run result = .ok () u ∧ u.Holds a.type n := by
  have ready : (result.widenTo a.type) = result.retype a.type := widenTo_of_null null.wf null.type _
  have integral' : (result.retype a.type).AnyIntegral :=
    ⟨null.wf.retype _, (type_retype result a.type).symm ▸ integral.integral⟩
  have holds := integral'.holds_setBits n
  rw [type_retype] at holds
  rw [← ready] at holds
  exact ⟨_, rfl, holds⟩

theorem shift_run_eq (d : Direction) (integral : a.AnyIntegral) (int : amount.AnyInt) (result : Value) :
    (shift d a amount).run result =
      (storeBits a ((shifted d a.number.toWide amount.toInt).setWidth _)).run result := by
  unfold shift
  rw [Program.run_check_of_ok (require_integral integral), Program.run_check_of_ok (require_amount int)]

theorem shift_run (d : Direction) (integral : a.AnyIntegral) (int : amount.AnyInt) (null : result.IsNull) :
    ∃ u, (shift d a amount).run result = .ok () u ∧
      u.Holds a.type (timesPower a.toInt (d.places amount.toInt)) := by
  have le : a.type.bitWidth ≤ 128 := Nat.le_trans a.type.bitWidth_le (by decide)
  rw [shift_run_eq d integral int, setWidth_shifted le]
  exact storeBits_run integral null _

theorem rotate_run (d : Direction) (integral : a.AnyIntegral) (int : amount.AnyInt)
    (null : result.IsNull) :
    ∃ u, (rotate d a amount).run result = .ok () u ∧ u.Rotates a (d.places amount.toInt) := by
  have le : a.type.bitWidth ≤ 128 := Nat.le_trans a.type.bitWidth_le (by decide)
  have pattern : a.number.toWide.setWidth a.type.bitWidth = .ofInt a.type.bitWidth a.toInt := by
    have whole : BitVec.ofInt 128 a.toInt = a.number.toWide := BitVec.ofInt_toInt
    rw [← Layout.setWidth_ofInt le, whole]
  unfold rotate
  rw [Program.run_check_of_ok (require_integral integral), Program.run_check_of_ok (require_amount int),
    pattern]
  have moved (i : Nat) (lt : i < a.type.bitWidth) :=
    getLsbD_rotated d (.ofInt a.type.bitWidth a.toInt) amount.toInt lt
  generalize rotated d (.ofInt a.type.bitWidth a.toInt) amount.toInt = bits at moved
  obtain ⟨u, run, holds⟩ := storeBits_run integral null bits.toInt
  rw [BitVec.ofInt_toInt] at run
  refine ⟨u, run, holds.wf, holds.type, ?_⟩
  -- What is stored is wrapped to the type, which changes none of the bits.
  intro i lt
  have stored : BitVec.ofInt a.type.bitWidth u.toInt = bits :=
    (Layout.ofInt_eq_iff.mpr holds.modEq).trans BitVec.ofInt_toInt
  have positive : (0 : Int) < a.type.bitWidth := by omega
  have nonneg := Int.emod_nonneg ((i : Int) - d.places amount.toInt) (Int.ne_of_gt positive)
  have inside := Int.emod_lt_of_pos ((i : Int) - d.places amount.toInt) positive
  calc u.toInt.testBit i
    _ = (BitVec.ofInt a.type.bitWidth u.toInt).getLsbD i := Layout.testBit_eq lt u.toInt
    _ = bits.getLsbD i := by rw [stored]
    _ = _ := moved i lt
    _ = _ := (Layout.testBit_eq (by omega) a.toInt).symm

end Operator

/-! ## §6 Calls by name -/

namespace Library

variable {lib : Library} {v k : Value}

/-- Called with the operands pushed one after the other, on any container of type NULL, the library gives
a value with the property. -/
def Gives (lib : Library) (name : String) (operands : List Value) (P : Value → Prop) : Prop :=
  ∀ result : Value, result.IsNull → ∃ u, lib.call name result (.ofList operands) = ⟨.ok (), u, .empty⟩ ∧ P u

/-- What shifting and rotating a value by an amount comes to. -/
structure Shifts (lib : Library) (v k : Value) : Prop where
  shl : lib.Gives "SHL" [v, k] (·.Holds v.type (Operator.timesPower v.toInt k.toInt))
  shr : lib.Gives "SHR" [v, k] (·.Holds v.type (Operator.timesPower v.toInt (-k.toInt)))
  /-- Where the opposite amount is a value too, a shift by it the other way is the same. -/
  opposite : ∀ k' : Value, k'.AnyInt → k'.toInt = -k.toInt → ∀ result,
    lib.call "SHR" result (.ofList [v, k]) = lib.call "SHL" result (.ofList [v, k'])
  rol : lib.Gives "ROL" [v, k] fun u => u.Rotates v k.toInt ∧ lib.Gives "ROR" [u, k] (·.Alike v) ∧
    ∀ m : Value, m.AnyInt → lib.Gives "ROL" [u, m] (·.Rotates v (k.toInt + m.toInt))
  ror : lib.Gives "ROR" [v, k] fun u => u.Rotates v (-k.toInt) ∧ lib.Gives "ROL" [u, k] (·.Alike v) ∧
    ∀ m : Value, m.AnyInt → lib.Gives "ROR" [u, m] (·.Rotates v (-(k.toInt + m.toInt)))

section

variable {name : String} {d : Operator.Direction}

theorem gives_shift (found : lib.find? name = some (.binary (Operator.shift d))) (integral : v.AnyIntegral)
    (int : k.AnyInt) :
    lib.Gives name [v, k] (·.Holds v.type (Operator.timesPower v.toInt (d.places k.toInt))) := by
  intro result null
  obtain ⟨u, run, holds⟩ := Operator.shift_run d integral int null
  exact ⟨u, call_binary_of_ok found run, holds⟩

theorem gives_rotate (found : lib.find? name = some (.binary (Operator.rotate d)))
    (integral : v.AnyIntegral) (int : k.AnyInt) :
    lib.Gives name [v, k] (·.Rotates v (d.places k.toInt)) := by
  intro result null
  obtain ⟨u, run, rotates⟩ := Operator.rotate_run d integral int null
  exact ⟨u, call_binary_of_ok found run, rotates⟩

theorem gives_mono {operands : List Value} {P Q : Value → Prop} (gives : lib.Gives name operands P)
    (implies : ∀ u, P u → Q u) : lib.Gives name operands Q := by
  intro result null
  obtain ⟨u, reply, holds⟩ := gives result null
  exact ⟨u, reply, implies u holds⟩

/-- A rotation the other way leads back, and one the same way leads further. -/
theorem gives_rotate_again (found : lib.find? name = some (.binary (Operator.rotate d))) {name' : String}
    {d' : Operator.Direction} (found' : lib.find? name' = some (.binary (Operator.rotate d')))
    (opposite : ∀ n, d.places n + d'.places n = 0) (integral : v.AnyIntegral) (int : k.AnyInt) :
    lib.Gives name [v, k] fun u => u.Rotates v (d.places k.toInt) ∧ lib.Gives name' [u, k] (·.Alike v) ∧
      ∀ m : Value, m.AnyInt →
        lib.Gives name [u, m] (·.Rotates v (d.places k.toInt + d.places m.toInt)) := by
  apply gives_mono (gives_rotate found integral int)
  intro u rotates
  have integral' := rotates.anyIntegral integral
  refine ⟨rotates, ?_, ?_⟩
  · apply gives_mono (gives_rotate found' integral' int)
    intro x back
    have around := rotates.trans back
    rw [opposite] at around
    exact around.alike integral
  · intro m int'
    exact gives_mono (gives_rotate found integral' int') fun x further => rotates.trans further

end

theorem find?_shl (mode : PowerMode) (profile : LiteralProfile) :
    (standard mode profile).find? "SHL" = some (.binary (Operator.shift .left)) :=
  find?_standard profile (by simp [standardEntries])

theorem find?_shr (mode : PowerMode) (profile : LiteralProfile) :
    (standard mode profile).find? "SHR" = some (.binary (Operator.shift .right)) :=
  find?_standard profile (by simp [standardEntries])

theorem find?_rol (mode : PowerMode) (profile : LiteralProfile) :
    (standard mode profile).find? "ROL" = some (.binary (Operator.rotate .left)) :=
  find?_standard profile (by simp [standardEntries])

theorem find?_ror (mode : PowerMode) (profile : LiteralProfile) :
    (standard mode profile).find? "ROR" = some (.binary (Operator.rotate .right)) :=
  find?_standard profile (by simp [standardEntries])

/-- Two operators reply alike where they run alike. -/
theorem call_binary_congr {apply apply' : Value → Value → Action} {name name' : String}
    (found : lib.find? name = some (.binary apply)) (found' : lib.find? name' = some (.binary apply'))
    {a b a' b' result : Value} (same : (apply a b).run result = (apply' a' b').run result) :
    lib.call name result (.ofList [a, b]) = lib.call name' result (.ofList [a', b']) := by
  cases run : (apply' a' b').run result with
  | ok _ result' => rw [call_binary_of_ok found (same.trans run), call_binary_of_ok found' run]
  | error fault result' =>
    rw [call_binary_of_error found (same.trans run), call_binary_of_error found' run]

/-- SHL, SHR, ROL and ROR on any integral value and any integer amount. -/
theorem standard_shifts (mode : PowerMode) (profile : LiteralProfile) (integral : v.AnyIntegral)
    (int : k.AnyInt) : Shifts (standard mode profile) v k where
  shl := gives_shift (find?_shl mode profile) integral int
  shr := gives_shift (find?_shr mode profile) integral int
  opposite k' int' negated result := by
    apply call_binary_congr (find?_shr mode profile) (find?_shl mode profile)
    rw [Operator.shift_run_eq .right integral int, Operator.shift_run_eq .left integral int',
      Operator.shifted_right, negated]
  rol :=
    gives_rotate_again (find?_rol mode profile) (find?_ror mode profile) Int.add_right_neg integral int
  ror := by
    simp only [Int.neg_add]
    exact gives_rotate_again (find?_ror mode profile) (find?_rol mode profile) Int.add_left_neg integral
      int

/-- Three quarters below zero are rounded down, a BOOL has room for one bit, and the greatest ULINT is
seven places more than it takes to go around a BYTE. -/
theorem standard_shifts_signed :
    let lib := standard .power {}
    let minus := Value.ofNumber .int (.ofInt (-3))
    let two := Value.ofNumber .usint (.ofInt 2)
    let most := Value.ofNumber .ulint (.ofInt (2 ^ 64 - 1))
    let on := Value.ofNumber .bool (.ofInt 1)
    let byte := Value.ofNumber .byte (.ofInt 1)
    lib.Gives "SHR" [minus, two] (·.toInt = -1) ∧ lib.Gives "SHL" [on, two] (·.toInt = 0) ∧
      lib.Gives "ROL" [byte, most] (·.toInt.testBit 7 = true) := by
  intro lib minus two most on byte
  have integral {t : DataType} (member : t.belongs .integral = true) (n : Number) :
      (Value.ofNumber t n).AnyIntegral := ⟨(wellFormed_zero t).setNumber n, member⟩
  have two_int : two.AnyInt := .ofNumber rfl _
  have most_int : most.AnyInt := .ofNumber rfl _
  refine ⟨?_, ?_, ?_⟩
  · apply gives_mono (standard_shifts .power {} (integral (t := .int) rfl _) two_int).shr
    intro u holds
    exact holds.toInt.trans (by decide +kernel)
  · apply gives_mono (standard_shifts .power {} (integral (t := .bool) rfl _) two_int).shl
    intro u holds
    exact holds.toInt.trans (by decide +kernel)
  · apply gives_mono (standard_shifts .power {} (integral (t := .byte) rfl _) most_int).rol
    intro u rotated
    exact (rotated.1.bit 7 (by decide)).trans (by decide +kernel)

end Library

end Plc
