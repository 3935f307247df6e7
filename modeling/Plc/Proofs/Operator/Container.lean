import Plc.Proofs.Operator.Division
import Plc.Proofs.Operator.Shift
import Plc.Proofs.Operator.TimeSpan
import Plc.Proofs.Value.Room

/-!
# Integers in containers that are in use

The container of a result may hold a value from before. It only ever moves to a higher type, so it may keep
one that outranks the operands, and what it reads as afterwards depends on the number that was stored and on
the room that the kept type has for it. Higher does not mean wider: an unsigned type outranks the signed one
of its width, and bit strings, dates, characters and edges outrank integers.

SUB, DIV and MOD store the exact result with its sign, and only the room of the container decides. SHR
stores the pattern of bits, read without a sign. In a wider container the sign of the shifted value is lost,
also where there would be room for it.

Main statements:

* `Value.Receives`: an exact integer in a container that may be in use.
* `Library.standard_exact_iff`: SUB, DIV and MOD.
* `Library.standard_shr_signed`: SHR of a signed value.
-/

namespace Plc

open Value

/-! ## §1 Ranges of integer types -/

namespace DataType

variable {s t : DataType} {n : Int}

theorem int_of_signed (signed : t.isSigned = true) : t.belongs .int = true := by
  show (t.isSigned || t.isUnsigned) = true
  rw [signed]
  rfl

theorem hasRoom_signed_iff (signed : t.isSigned = true) :
    t.HasRoom n ↔ -2 ^ (t.bitWidth - 1) ≤ n ∧ n < 2 ^ (t.bitWidth - 1) := by
  have word : t.IsWord := isWord_of_int (int_of_signed signed)
  unfold HasRoom
  rw [word, signed]
  show _ ∧ n ≤ 2 ^ (t.bitWidth - 1) - 1 ↔ _
  rw [Int.le_sub_one_iff]
  rfl

theorem bitWidth_pos_of_signed (signed : t.isSigned = true) : 0 < t.bitWidth := by
  have sized := t.sized_layout
  rw [isWord_of_int (int_of_signed signed)] at sized
  exact sized.1

theorem bounds_of_hasRoom (int : t.belongs .int = true) (room : t.HasRoom n) :
    -2 ^ 63 ≤ n ∧ n < 2 ^ 64 := by
  have each : ∀ t ∈ all, t.belongs .int = true →
      -2 ^ 63 ≤ Layout.wordLeast t.isSigned t.bitWidth ∧
        Layout.wordGreatest t.isSigned t.bitWidth < 2 ^ 64 := by decide +kernel
  have word : t.IsWord := isWord_of_int int
  unfold HasRoom at room
  rw [word] at room
  obtain ⟨least, greatest⟩ := room
  obtain ⟨lower, upper⟩ := each t t.mem_all int
  exact ⟨Int.le_trans lower least, Int.lt_of_le_of_lt greatest upper⟩

theorem bitWidth_lt_of_signed (signed : s.isSigned = true) (signed' : t.isSigned = true)
    (le : s.bitWidth ≤ t.bitWidth) (other : t ≠ s) : s.bitWidth < t.bitWidth := by
  have all_pairs : ∀ s ∈ all, ∀ t ∈ all, s.isSigned = true → t.isSigned = true →
      s.bitWidth ≤ t.bitWidth → t ≠ s → s.bitWidth < t.bitWidth := by decide +kernel
  exact all_pairs s s.mem_all t t.mem_all signed signed' le other

end DataType

/-! ## §2 Exact integers -/

namespace Value

variable {a b result : Value} {t : DataType} {n : Int}

theorem AnyInt.bounds (int : a.AnyInt) : -2 ^ 63 ≤ a.toInt ∧ a.toInt < 2 ^ 64 :=
  DataType.bounds_of_hasRoom int.int int.hasRoom

theorem AnyInt.fits_sub (int : a.AnyInt) (int' : b.AnyInt) : Number.Fits (a.toInt - b.toInt) := by
  have bounds := int.bounds
  have bounds' := int'.bounds
  exact ⟨by omega, by omega⟩

theorem AnyInt.fits_of_natAbs_le (int : a.AnyInt) (le : n.natAbs ≤ a.toInt.natAbs) : Number.Fits n := by
  have bounds := int.bounds
  exact ⟨by omega, by omega⟩

/-- The integer `n` has been written, at the type `t`, into the container `result`, which has become `u`. -/
structure Receives (u result : Value) (t : DataType) (n : Int) : Prop where
  wf : u.WellFormed
  type : u.type = result.readyType t
  exact_iff : u.type.isReal = false → (u.number? = some (.ofInt n) ↔ u.type.HasRoom n)

theorem receives_setNumber (wf : result.WellFormed) (t : DataType) (fits : Number.Fits n) :
    ((result.widenTo t).setNumber (.ofInt n)).Receives result t n where
  wf := (closed_wellFormed.widenTo result t wf).setNumber _
  type := type_widenTo result t
  exact_iff _ := (closed_wellFormed.widenTo result t wf).number?_setNumber_iff fits

/-- Of reals nothing is said but the type. -/
theorem receives_of_isReal (wf : result.WellFormed) (t : DataType) (real : (result.widenTo t).type.isReal = true)
    (x : Number) (n : Int) : ((result.widenTo t).setNumber x).Receives result t n where
  wf := (closed_wellFormed.widenTo result t wf).setNumber _
  type := type_widenTo result t
  exact_iff not_real := by
    rw [type_setNumber, real] at not_real
    contradiction

end Value

namespace Operator

variable {a b result : Value}

theorem sub_run_of_int (int : a.AnyInt) (int' : b.AnyInt) (result : Value) :
    (sub a b).run result = .ok ()
      ((result.widenTo (a.type.wider b.type)).setNumber (.ofInt (a.toInt - b.toInt))) := by
  have checked : a.require [.magnitude] = .ok () := if_pos (int.magnitude_belongsAny List.mem_cons_self)
  have checked' : b.require [.magnitude] = .ok () :=
    if_pos (int'.magnitude_belongsAny List.mem_cons_self)
  unfold sub
  rw [Program.run_check_of_ok checked, Program.run_check_of_ok checked', int.word.number_eq,
    int'.word.number_eq, Number.ofInt_sub]
  rfl

end Operator

/-! ## §3 Patterns of signed values -/

theorem emod_two_pow_of_signed {width : Nat} (positive : 0 < width) {n : Int}
    (least : -2 ^ (width - 1) ≤ n) (limit : n < 2 ^ (width - 1)) :
    n % 2 ^ width = if 0 ≤ n then n else n + 2 ^ width := by
  have double : (2 : Int) ^ width = 2 * 2 ^ (width - 1) := by
    rw [← Int.pow_succ', Nat.sub_add_cancel positive]
  split
  case isTrue nonneg => exact Int.emod_eq_of_lt nonneg (by omega)
  case isFalse negative =>
    rw [← Int.add_emod_right]
    exact Int.emod_eq_of_lt (by omega) (by omega)

/-- Rounding the quotient down leaves the sign and makes nothing greater. -/
theorem ediv_two_pow_bounds (n : Int) (count : Nat) :
    (0 ≤ n → 0 ≤ n / 2 ^ count ∧ n / 2 ^ count ≤ n) ∧ (n < 0 → n ≤ n / 2 ^ count ∧ n / 2 ^ count < 0) := by
  have positive : (0 : Int) < 2 ^ count := Int.pow_pos (by decide)
  constructor
  · intro nonneg
    exact ⟨Int.ediv_nonneg nonneg (Int.le_of_lt positive), Int.ediv_le_self _ nonneg⟩
  · intro negative
    refine ⟨(Int.le_ediv_iff_mul_le positive).mpr ?_, Int.ediv_neg_of_neg_of_pos negative positive⟩
    have more := Int.mul_le_mul_of_nonpos_left (Int.le_of_lt negative) positive
    omega

namespace Value

variable {c v : Value} {t : DataType} {n : Int}

/-- The pattern of a signed type, stored in a container of a signed type that is not narrower. Only a
container of the same type reads it with its sign. -/
theorem WellFormed.toInt_pattern (wf : c.WellFormed) (signed : c.type.isSigned = true)
    (signed' : t.isSigned = true) (le : t.bitWidth ≤ c.type.bitWidth) (room : t.HasRoom n) :
    (c.setNumber (.ofInt (n % 2 ^ t.bitWidth))).toInt =
      if c.type = t ∨ 0 ≤ n then n else n + 2 ^ t.bitWidth := by
  have word : c.Word := ⟨wf, DataType.isWord_of_int (DataType.int_of_signed signed)⟩
  rw [(word.holds_setNumber _).toInt]
  by_cases same : c.type = t
  case pos =>
    subst same
    rw [if_pos (Or.inl rfl), DataType.wrap_eq_of_modEq (Int.mod_modEq n _),
      word.type.wrap_of_hasRoom room]
  case neg =>
    -- The container is wider, so the pattern does not reach its sign.
    have wider := DataType.bitWidth_lt_of_signed signed' signed le same
    obtain ⟨least, limit⟩ := (DataType.hasRoom_signed_iff signed').mp room
    have pattern := emod_two_pow_of_signed (DataType.bitWidth_pos_of_signed signed') least limit
    have positive : (0 : Int) < 2 ^ t.bitWidth := Int.pow_pos (by decide)
    have nonneg := Int.emod_nonneg n (Int.ne_of_gt positive)
    have below := Int.emod_lt_of_pos n positive
    have power : (2 : Int) ^ t.bitWidth ≤ 2 ^ (c.type.bitWidth - 1) := by
      exact_mod_cast Nat.pow_le_pow_right Nat.zero_lt_two (Nat.le_sub_one_of_lt wider)
    have room' : c.type.HasRoom (n % 2 ^ t.bitWidth) :=
      (DataType.hasRoom_signed_iff signed).mpr ⟨by omega, by omega⟩
    rw [word.type.wrap_of_hasRoom room', pattern]
    simp only [same, false_or]

end Value

namespace Operator

variable {v k : Value}

theorem shr_run (int : v.AnyInt) (amount : k.AnyInt) (nonneg : 0 ≤ k.toInt) (result : Value) :
    (shift .right v k).run result = .ok () ((result.widenTo v.type).setNumber
      (.ofInt (v.toInt / 2 ^ k.toInt.toNat % 2 ^ v.type.bitWidth))) := by
  have le : v.type.bitWidth ≤ 128 := Nat.le_trans v.type.bitWidth_le (by decide)
  have places : timesPower v.toInt (Direction.places .right k.toInt) = v.toInt / 2 ^ k.toInt.toNat := by
    rw [timesPower_of_nonpos (by show -k.toInt ≤ 0; omega)]
    show v.toInt / 2 ^ (- -k.toInt).toNat = _
    rw [Int.neg_neg]
  rw [shift_run_eq .right int.anyIntegral amount, setWidth_shifted le]
  show (storeBits v (BitVec.ofInt _ (timesPower v.toInt _))).run result = _
  rw [places]
  unfold storeBits
  rw [Number.int_pattern]
  rfl

end Operator

/-! ## §4 Calls -/

namespace Library

variable {a b v k result : Value}

/-- What SUB, MOD and DIV make of two integers in a container. -/
structure ExactIff (lib : Library) (a b result : Value) : Prop where
  sub : ∃ u, lib.call "SUB" result (.ofList [a, b]) = ⟨.ok (), u, .empty⟩ ∧
    u.Receives result (a.type.wider b.type) (a.toInt - b.toInt)
  mod : ∃ u, lib.call "MOD" result (.ofList [a, b]) = ⟨.ok (), u, .empty⟩ ∧
    u.Receives result (a.type.wider b.type) (if b.toInt = 0 then 0 else a.toInt.tmod b.toInt)
  div : b.toInt ≠ 0 → ∃ u, lib.call "DIV" result (.ofList [a, b]) = ⟨.ok (), u, .empty⟩ ∧
    u.Receives result (a.type.wider b.type) (a.toInt.tdiv b.toInt)

/-- The difference, the remainder and the truncated quotient of two integers, in any container: unless the
container ends as a real, it reads as the exact integer if and only if its type has room for it. -/
theorem standard_exact_iff (mode : PowerMode) (profile : LiteralProfile) (int : a.AnyInt) (int' : b.AnyInt)
    (wf : result.WellFormed) : ExactIff (standard mode profile) a b result where
  sub := ⟨_, call_binary_of_ok (find?_sub mode profile) (Operator.sub_run_of_int int int' result),
    receives_setNumber wf _ (int.fits_sub int')⟩
  mod := by
    refine ⟨_, call_binary_of_ok (find?_mod mode profile) (Operator.mod_run_of_int int int' result), ?_⟩
    split
    case isTrue zero =>
      rw [int.word.number_rem_zero int'.word zero]
      exact receives_setNumber wf _ ⟨by decide, by decide⟩
    case isFalse nonzero =>
      have le : (a.toInt.tmod b.toInt).natAbs ≤ a.toInt.natAbs := by
        rw [Int.natAbs_tmod]
        exact Nat.mod_le _ _
      rw [int.word.number_rem int'.word nonzero]
      exact receives_setNumber wf _ (int.fits_of_natAbs_le le)
  div nonzero := by
    refine ⟨_, call_binary_of_ok (find?_div mode profile)
      (Operator.div_run_of_int int int' nonzero result), ?_⟩
    have le : (a.toInt.tdiv b.toInt).natAbs ≤ a.toInt.natAbs := Int.natAbs_tdiv_le_natAbs _ _
    split
    case isTrue real =>
      apply receives_of_isReal wf
      have wide := closed_wellFormed.widenTo result (a.type.wider b.type) wf
      rw [wide.belongsAny_eq] at real
      simpa [DataType.belongsAny, DataType.belongs] using real
    case isFalse => exact receives_setNumber wf _ (int.fits_of_natAbs_le le)

/-- Two less than nothing: an INT has room for it, and USINT outranks SINT but has none. -/
theorem standard_exact_iff_below_zero :
    let lib := standard .power {}
    let three := Value.ofNumber .sint (.ofInt 3)
    let five := Value.ofNumber .sint (.ofInt 5)
    (∃ u, lib.call "SUB" (.zero .int) (.ofList [three, five]) = ⟨.ok (), u, .empty⟩ ∧
      u.number? = some (.ofInt (-2))) ∧
    (∃ u, lib.call "SUB" (.zero .usint) (.ofList [three, five]) = ⟨.ok (), u, .empty⟩ ∧
      u.number? ≠ some (.ofInt (-2))) := by
  intro lib three five
  have three_int : three.AnyInt := .ofNumber rfl _
  have five_int : five.AnyInt := .ofNumber rfl _
  have difference : three.toInt - five.toInt = -2 := by decide +kernel
  have settled (t : DataType) :=
    (standard_exact_iff .power {} three_int five_int (wellFormed_zero t)).sub
  rw [difference] at settled
  refine ⟨?_, ?_⟩
  · obtain ⟨u, reply, receives⟩ := settled .int
    have type : u.type = .int := receives.type
    refine ⟨u, reply, (receives.exact_iff ?_).mpr ?_⟩
    · rw [type]
      rfl
    · rw [type]
      decide
  · obtain ⟨u, reply, receives⟩ := settled .usint
    have type : u.type = .usint := receives.type
    refine ⟨u, reply, fun exact_number => ?_⟩
    have room := (receives.exact_iff (by rw [type]; rfl)).mp exact_number
    rw [type] at room
    exact absurd room (by decide)

/-- That SINT has room for minus two does not help where the container is a USINT. -/
theorem room_of_operands_insufficient :
    ¬∀ (mode : PowerMode) (profile : LiteralProfile) (a b result u : Value), a.AnyInt → b.AnyInt →
      result.WellFormed →
      (standard mode profile).call "SUB" result (.ofList [a, b]) = ⟨.ok (), u, .empty⟩ →
      (a.type.wider b.type).HasRoom (a.toInt - b.toInt) → u.type.isReal = false →
      u.number? = some (.ofInt (a.toInt - b.toInt)) := by
  intro always
  have three_int : (ofNumber .sint (.ofInt 3)).AnyInt := .ofNumber rfl _
  have five_int : (ofNumber .sint (.ofInt 5)).AnyInt := .ofNumber rfl _
  have run := Operator.sub_run_of_int three_int five_int (zero .usint)
  have reply := call_binary_of_ok (find?_sub .power {}) run
  have exact_number := always .power {} _ _ _ _ three_int five_int (wellFormed_zero .usint) reply
    (by decide +kernel) (by decide +kernel)
  exact absurd exact_number (by decide +kernel)

/-- What SHR by a number of places leaves of a signed value `v` in the container `result`, which has become
`u`, if its type is signed as well and not narrower than that of `v`. -/
structure ShiftsInto (u result v : Value) (places : Nat) : Prop where
  wf : u.WellFormed
  type : u.type = result.readyType v.type
  /-- In a container of another type a negative value is off by the width of its own type. -/
  toInt : u.type.isSigned = true → v.type.bitWidth ≤ u.type.bitWidth →
    u.toInt = if u.type = v.type ∨ 0 ≤ v.toInt then v.toInt / 2 ^ places
      else v.toInt / 2 ^ places + 2 ^ v.type.bitWidth
  floor_iff : u.type.isSigned = true → v.type.bitWidth ≤ u.type.bitWidth →
    (u.toInt = v.toInt / 2 ^ places ↔ u.type = v.type ∨ 0 ≤ v.toInt)

/-- SHR of a signed value by an amount that is not negative, into any container: where the container is
signed and not narrower, it reads as the quotient rounded down if and only if it has the type of the value
or the value is not negative. -/
theorem standard_shr_signed (mode : PowerMode) (profile : LiteralProfile) (wf' : v.WellFormed)
    (signed' : v.type.isSigned = true) (amount : k.AnyInt) (nonneg : 0 ≤ k.toInt) (wf : result.WellFormed) :
    ∃ u, (standard mode profile).call "SHR" result (.ofList [v, k]) = ⟨.ok (), u, .empty⟩ ∧
      ShiftsInto u result v k.toInt.toNat := by
  have int : v.AnyInt := ⟨wf', DataType.int_of_signed signed'⟩
  refine ⟨_, call_binary_of_ok (find?_shr mode profile) (Operator.shr_run int amount nonneg result), ?_⟩
  have ready := closed_wellFormed.widenTo result v.type wf
  have bounds := ediv_two_pow_bounds v.toInt k.toInt.toNat
  have room : v.type.HasRoom (v.toInt / 2 ^ k.toInt.toNat) := by
    obtain ⟨least, limit⟩ := (DataType.hasRoom_signed_iff signed').mp int.hasRoom
    exact (DataType.hasRoom_signed_iff signed').mpr ⟨by omega, by omega⟩
  have sign : 0 ≤ v.toInt / 2 ^ k.toInt.toNat ↔ 0 ≤ v.toInt := by omega
  have reads (signed : (result.widenTo v.type).type.isSigned = true)
      (le : v.type.bitWidth ≤ (result.widenTo v.type).type.bitWidth) :=
    ready.toInt_pattern signed signed' le room
  simp only [sign] at reads
  refine ⟨ready.setNumber _, type_widenTo result v.type, reads, ?_⟩
  intro signed le
  have width : (0 : Int) < 2 ^ v.type.bitWidth := Int.pow_pos (by decide)
  rw [reads signed le, type_setNumber]
  split
  case isTrue kept => exact iff_of_true rfl kept
  case isFalse lost => exact iff_of_false (by omega) lost

/-- Half of minus eight, in a fresh container and in one that is a DINT already. -/
theorem standard_shr_signed_int :
    let lib := standard .power {}
    let eight := Value.ofNumber .int (.ofInt (-8))
    let one := Value.ofNumber .int (.ofInt 1)
    (∃ u, lib.call "SHR" .null (.ofList [eight, one]) = ⟨.ok (), u, .empty⟩ ∧ u.toInt = -4) ∧
      ∃ u, lib.call "SHR" (.zero .dint) (.ofList [eight, one]) = ⟨.ok (), u, .empty⟩ ∧ u.toInt = 65532 := by
  intro lib eight one
  have one_int : one.AnyInt := .ofNumber rfl _
  have wf' : eight.WellFormed := (wellFormed_zero .int).setNumber _
  have settled (t : DataType) := standard_shr_signed .power {} wf' rfl one_int (by decide +kernel)
    (wellFormed_zero t)
  refine ⟨?_, ?_⟩
  · obtain ⟨u, reply, shifts⟩ := settled .null
    have type : u.type = .int := shifts.type
    refine ⟨u, reply, (shifts.toInt ?_ ?_).trans ?_⟩
    all_goals rw [type]; decide +kernel
  · obtain ⟨u, reply, shifts⟩ := settled .dint
    have type : u.type = .dint := shifts.type
    refine ⟨u, reply, (shifts.toInt ?_ ?_).trans ?_⟩
    all_goals rw [type]; decide +kernel

/-- A DINT has room for minus four, and yet half of minus eight is positive there. -/
theorem shr_loses_sign :
    ¬∀ (mode : PowerMode) (profile : LiteralProfile) (v k result u : Value), v.WellFormed →
      v.type.isSigned = true → k.AnyInt → 0 ≤ k.toInt → result.WellFormed →
      (standard mode profile).call "SHR" result (.ofList [v, k]) = ⟨.ok (), u, .empty⟩ →
      u.type.isSigned = true → v.type.bitWidth ≤ u.type.bitWidth →
      u.toInt = v.toInt / 2 ^ k.toInt.toNat := by
  intro always
  have eight_int : (ofNumber .int (.ofInt (-8))).AnyInt := .ofNumber rfl _
  have one_int : (ofNumber .int (.ofInt 1)).AnyInt := .ofNumber rfl _
  have nonneg : 0 ≤ (ofNumber .int (.ofInt 1)).toInt := by decide +kernel
  have run := Operator.shr_run eight_int one_int nonneg (zero .dint)
  have reply := call_binary_of_ok (find?_shr .power {}) run
  have floor := always .power {} _ _ _ _ eight_int.wf rfl one_int nonneg (wellFormed_zero .dint) reply
    (by decide +kernel) (by decide +kernel)
  exact absurd floor (by decide +kernel)

end Library

end Plc
