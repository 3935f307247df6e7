import Plc.Proofs.Binary.Quotient
import Plc.Proofs.Operator.TimeSpan

/-!
# A TIME out of its own number

The number of a TIME counts its milliseconds. Where they are whole it is an integer, which gives the TIME
back. Where they are not, it is a quotient of LREAL values, and on the way there and back the nanoseconds are
rounded, the quotient is rounded, the product is rounded, and what is left is truncated. A duration that LREAL
holds comes back through that if it is a number of 64ths of a millisecond, for then the quotient has few bits.
Any other one may come back changed: below 2 ^ 52 ns, some 52 days, it loses one nanosecond at most.

Main statements:

* `Layout.exists_real`: the number of a TIME and what it gives back, where milliseconds are not whole.
* `Duration.Restores`, `Duration.restores_number`: how far that is from the duration that was read.
* `Library.standard_restores_time`: the number of a TIME stored in a TIME, and ABS of a TIME.
* `Library.nanosecond_lost`: a duration that comes back changed.
-/

namespace Plc

open Value

/-! ## §1 Through a real number -/

namespace Duration

variable {d : Duration}

theorem natAbs_le (d : Duration) : d.nanos.natAbs ≤ 2 ^ 63 := by
  have least := d.least_le
  have limit := d.lt_limit
  omega

/-- Holding nanoseconds at the limits twice is holding them there once. -/
theorem saturate_clamp (nanos : Int) :
    saturate (max (-2 ^ 63) (min (2 ^ 63 - 1) nanos)) = saturate nanos := by
  apply Duration.ext
  show max (-2 ^ 63) (min (2 ^ 63 - 1) (max (-2 ^ 63) (min (2 ^ 63 - 1) nanos))) =
    max (-2 ^ 63) (min (2 ^ 63 - 1) nanos)
  omega

theorem nanos_ne_zero (fraction : ¬d.Whole) : d.nanos ≠ 0 := by
  intro zero
  apply fraction
  unfold Whole
  rw [zero]
  exact Int.dvd_zero Layout.million

/-- The duration of the given nanoseconds, under the sign of `d`. -/
def withMagnitude (d : Duration) (n : Nat) : Duration :=
  saturate (Binary.signed (decide (d.nanos < 0)) n)

/-- What LREAL makes of nanoseconds that are divided by a million and multiplied by it again, in quanta. -/
def throughMillis (nanos : Nat) : Nat := Format.double.throughQuotient nanos 1000000

/-- What is left of them once the fraction is dropped. -/
def returned (nanos : Nat) : Nat := throughMillis nanos / 2 ^ Format.double.scale

end Duration

namespace Layout

open Duration

variable {d : Duration}

theorem million_le : 1000000 ≤ (2 : Nat) ^ 20 := by decide

theorem fits_million : Format.double.Fits (1000000 * 2 ^ Format.double.scale) :=
  Format.fits_quanta million_le (by decide) (by decide)

/-- Nothing on the way to milliseconds and back reaches an infinity. -/
theorem exists_real (fraction : ¬d.Whole) :
    ∃ q fits, timeToNumber d = .real (.finite (decide (d.nanos < 0)) q fits) ∧
      numberToTime (timeToNumber d) = d.withMagnitude (returned d.nanos.natAbs) := by
  have room : d.nanos.natAbs * 2 ^ Format.double.scale * 2 ^ 3 < 2 ^ Format.double.span := by
    have few : d.nanos.natAbs * 2 ^ 3 ≤ 2 ^ 66 := Nat.mul_le_mul_right (2 ^ 3) d.natAbs_le
    rw [Nat.mul_right_comm]
    exact Format.quanta_lt few (by decide)
  obtain ⟨q, fits, fits', quotient, product⟩ :=
    Binary.div_mul_ofInt (nanos_ne_zero fraction) (by decide) fits_million
      (Format.mul_two_pow_le million_le (by decide)) room
  have real : timeToNumber d = .real (.ofInt d.nanos / .ofInt million) :=
    if_neg fun whole => fraction (Int.dvd_of_tmod_eq_zero whole)
  refine ⟨q, fits, real.trans (congrArg Number.real quotient), ?_⟩
  rw [real]
  show Duration.saturate
    (((.ofInt d.nanos / .ofInt million : Double) * .ofInt million).truncate (-2 ^ 63) (2 ^ 63 - 1)) = _
  rw [show (.ofInt d.nanos / .ofInt million : Double) * .ofInt million = _ from product]
  exact saturate_clamp _

end Layout

/-! ## §2 How far it comes back -/

namespace Duration

variable {n : Nat} {d e : Duration}

/-- The seven digits of a million leave a quotient all of its bits. -/
theorem returned_near (some : 0 < n) :
    returned n * (2 ^ 53) ^ 3 ≤ n * (2 ^ 53 + 1) ^ 3 ∧
      n * (2 ^ 53 - 1) ^ 3 < (returned n + 1) * (2 ^ 53) ^ 3 :=
  (Format.near_throughQuotient some (by decide)
    (Format.mul_two_pow_le Layout.million_le (by decide))).div (Nat.two_pow_pos _)

theorem aligned_of_small (small : n < 2 ^ 52) : Format.double.Aligned n :=
  Format.aligned_of_le (Nat.le_of_lt (Nat.lt_trans small (by decide)))

theorem returned_near_of_small (some : 0 < n) (small : n < 2 ^ 52) :
    returned n * (2 ^ 53) ^ 2 ≤ n * (2 ^ 53 + 1) ^ 2 ∧
      n * (2 ^ 53 - 1) ^ 2 < (returned n + 1) * (2 ^ 53) ^ 2 :=
  (Format.near_throughQuotient_of_aligned (aligned_of_small small) some (by decide)
    (Format.mul_two_pow_le Layout.million_le (by decide))).div (Nat.two_pow_pos _)

/-- Three roundings to 53 bits, and a truncation. -/
theorem returned_within (some : 0 < n) (few : n ≤ 2 ^ 63) :
    2 ^ 53 * returned n ≤ 2 ^ 53 * n + (3 * n + 2 ^ 53) ∧
      2 ^ 53 * n ≤ 2 ^ 53 * returned n + (3 * n + 2 ^ 53) := by
  obtain ⟨upper, lower⟩ := returned_near some
  constructor <;> omega

/-- Two roundings of so few nanoseconds come to less than one of them. -/
theorem returned_of_small (some : 0 < n) (small : n < 2 ^ 52) : returned n = n ∨ returned n + 1 = n := by
  obtain ⟨upper, lower⟩ := returned_near_of_small some small
  omega

/-- A 64th of a millisecond is 15625 ns, and a million is no more than a shift away from that. -/
theorem throughMillis_of_dvd (few : n ≤ 2 ^ 63) (dvd : 15625 ∣ n) (aligned : Format.double.Aligned n) :
    throughMillis n = n * 2 ^ Format.double.scale := by
  obtain ⟨c, rfl⟩ := dvd
  rw [Nat.mul_comm] at aligned ⊢
  have short : c ≤ 2 ^ 53 := by omega
  -- Rewritten, and not computed with: the quanta of the format have a thousand bits.
  have million : (1000000 : Nat) = 15625 * 2 ^ 6 := rfl
  unfold throughMillis
  rw [million]
  exact Format.throughQuotient_of_dvd aligned short (by decide) (by decide : 6 ≤ Format.double.scale)

/-- What comes back of the duration `d` by way of its number. -/
structure Restores (d e : Duration) : Prop where
  /-- Whole milliseconds come back. -/
  whole : d.Whole → e = d
  /-- So do multiples of a 64th of a millisecond, if LREAL holds their nanoseconds. -/
  binary : 15625 ∣ d.nanos → Format.double.Aligned d.nanos.natAbs → e = d
  /-- Below 2 ^ 52 ns, a nanosecond is lost at most. -/
  below : d.nanos.natAbs < 2 ^ 52 →
    e.nanos.natAbs ≤ d.nanos.natAbs ∧ (e.nanos - d.nanos).natAbs ≤ 1
  /-- It is lost where the last rounding ends below the nanoseconds that were read. -/
  below_iff : d.nanos.natAbs < 2 ^ 52 →
    (e = d ↔ d.nanos.natAbs * 2 ^ Format.double.scale ≤ throughMillis d.nanos.natAbs)
  /-- There are three roundings to 53 bits and a truncation. -/
  near : 2 ^ 53 * (e.nanos - d.nanos).natAbs ≤ 3 * d.nanos.natAbs + 2 ^ 53

theorem throughMillis_of_whole (whole : d.Whole) (small : d.nanos.natAbs < 2 ^ 52) :
    throughMillis d.nanos.natAbs = d.nanos.natAbs * 2 ^ Format.double.scale := by
  have dvd : (1000000 : Int) ∣ d.nanos := whole
  exact throughMillis_of_dvd d.natAbs_le (by omega) (aligned_of_small small)

theorem restores_self (whole : d.Whole) : d.Restores d where
  whole _ := rfl
  binary _ _ := rfl
  below _ := by omega
  below_iff small := iff_of_true rfl (Nat.le_of_eq (throughMillis_of_whole whole small).symm)
  near := by omega

theorem nanos_withMagnitude (d : Duration) (n : Nat) : (d.withMagnitude n).nanos =
    if d.nanos < 0 then max (-2 ^ 63) (-(n : Int)) else min (2 ^ 63 - 1) (n : Int) := by
  show max (-2 ^ 63) (min (2 ^ 63 - 1) (Binary.signed (decide (d.nanos < 0)) n)) = _
  unfold Binary.signed
  by_cases negative : d.nanos < 0
  · simp only [negative, decide_true, if_true]
    omega
  · simp only [negative, decide_false, if_false, Bool.false_eq_true]
    omega

/-- With a magnitude that is not greater, it is the same duration only if the magnitude is the same. -/
theorem withMagnitude_eq_iff (le : n ≤ d.nanos.natAbs) :
    d.withMagnitude n = d ↔ d.nanos.natAbs ≤ n := by
  have nanos := d.nanos_withMagnitude n
  have least := d.least_le
  have limit := d.lt_limit
  rw [Duration.ext_iff]
  split at nanos <;> omega

theorem le_returned_iff : n ≤ returned n ↔ n * 2 ^ Format.double.scale ≤ throughMillis n :=
  Nat.le_div_iff_mul_le (Nat.two_pow_pos _)

theorem restores_returned (fraction : ¬d.Whole) : d.Restores (d.withMagnitude (returned d.nanos.natAbs)) := by
  have some : 0 < d.nanos.natAbs := Int.natAbs_pos.mpr (nanos_ne_zero fraction)
  have nanos := d.nanos_withMagnitude (returned d.nanos.natAbs)
  have least := d.least_le
  have limit := d.lt_limit
  refine
    { whole := fun whole => absurd whole fraction
      binary := ?binary
      below := ?below
      below_iff := ?below_iff
      near := ?near }
  case binary =>
    intro dvd aligned
    have exact_product := throughMillis_of_dvd d.natAbs_le (by omega) aligned
    have kept : returned d.nanos.natAbs = d.nanos.natAbs := by
      unfold returned
      rw [exact_product, Nat.mul_div_cancel _ (Nat.two_pow_pos _)]
    rw [kept]
    exact (withMagnitude_eq_iff (Nat.le_refl _)).mpr (Nat.le_refl _)
  case below =>
    intro small
    have lost := returned_of_small some small
    -- The sign decides which limit could hold the nanoseconds; there are too few of them for either.
    split at nanos <;> omega
  case below_iff =>
    intro small
    have lost := returned_of_small some small
    rw [withMagnitude_eq_iff (by omega), le_returned_iff]
  case near =>
    have within := returned_within some d.natAbs_le
    split at nanos <;> omega

/-- Whole milliseconds are few enough to be neither wrapped nor held at a limit. -/
theorem Whole.numberToTime_timeToNumber (whole : d.Whole) :
    Layout.numberToTime (Layout.timeToNumber d) = d := by
  have least := d.least_le_millis
  have greatest := d.millis_le_greatest
  rw [Layout.timeToNumber_of_whole whole, Layout.numberToTime_of_fits (by omega) (by omega)]
  apply Duration.ext
  rw [ofMillis, ← whole.nanos_eq, nanos_saturate d.least_le d.lt_limit]

theorem restores_number (d : Duration) : d.Restores (Layout.numberToTime (Layout.timeToNumber d)) := by
  -- Integers and reals are read back in different ways, and agree in what they promise.
  by_cases whole : d.Whole
  case pos =>
    rw [whole.numberToTime_timeToNumber]
    exact restores_self whole
  case neg =>
    obtain ⟨_, _, _, back⟩ := Layout.exists_real whole
    rw [back]
    exact restores_returned whole

end Duration

/-! ## §3 Calls -/

theorem Number.abs_ofInt {n : Int} (nonneg : 0 ≤ n) (limit : n < 2 ^ 127) :
    (Number.ofInt n).abs = .ofInt n := by
  have kept : (BitVec.ofInt 128 n).toInt = n :=
    BitVec.toInt_ofInt_eq_self (by decide) (by omega) limit
  have positive : (BitVec.ofInt 128 n).msb = false := by
    rw [BitVec.msb_eq_toInt, kept]
    exact decide_eq_false (by omega)
  refine congrArg Number.int ?_
  rw [BitVec.abs_eq, positive]
  rfl

theorem Layout.abs_timeToNumber {d : Duration} (nonneg : 0 ≤ d.nanos) :
    (timeToNumber d).abs = timeToNumber d := by
  by_cases whole : d.Whole
  case pos =>
    have greatest := d.millis_le_greatest
    rw [timeToNumber_of_whole whole]
    exact Number.abs_ofInt (Int.tdiv_nonneg nonneg (by decide)) (by omega)
  case neg =>
    obtain ⟨_, _, real, _⟩ := Layout.exists_real whole
    have sign : decide (d.nanos < 0) = false := decide_eq_false (Int.not_lt.mpr nonneg)
    rw [real, sign]
    rfl

theorem Operator.abs_run {v result : Value} {d : Duration} (lasts : v.Lasts d) (wf : result.WellFormed)
    (null : result.type = .null) :
    (abs v).run result = .ok () ((result.retype .time).setNumber v.number.abs) := by
  have checked : v.require [.magnitude] = .ok () := if_pos lasts.belongsAny
  unfold abs
  rw [Program.run_check_of_ok checked, lasts.type]
  change EStateM.Result.ok () ((result.widenTo .time).setNumber v.number.abs) = _
  rw [widenTo_of_null wf null]

namespace Library

theorem find?_abs (mode : PowerMode) (profile : LiteralProfile) :
    (standard mode profile).find? "ABS" = some (.unary Operator.abs) :=
  find?_standard profile (by simp [standardEntries])

/-- ABS of a TIME that is not negative is what its number gives back. -/
theorem givesTime_abs (mode : PowerMode) (profile : LiteralProfile) {v : Value} {d : Duration}
    (lasts : v.Lasts d) (nonneg : 0 ≤ d.nanos) :
    (standard mode profile).GivesTime "ABS" [v] (Layout.numberToTime (Layout.timeToNumber d)) := by
  intro result wf null
  have run := Operator.abs_run lasts wf null
  have written := (lasts_retype_null wf null).setNumber v.number.abs
  rw [lasts.number_eq_timeToNumber, Layout.abs_timeToNumber nonneg] at run written
  exact ⟨_, call_of_ok (find?_abs mode profile) (Call.onResult_of_ok .empty run), written,
    fun plain _ => written.eq_ofDuration ((plain.retype .time).setNumber _)⟩

/-- **The number of a TIME.** Stored in a TIME, it gives the duration back but for what is lost on the way
through LREAL, and so does ABS of a duration that is not negative. -/
theorem standard_restores_time (mode : PowerMode) (profile : LiteralProfile) (d : Duration) :
    ∃ e, d.Restores e ∧
      (∀ c : Duration, (⟨.time, d⟩ : Payload).number?.map (Payload.store ⟨.time, c⟩) = some ⟨.time, e⟩) ∧
      (∀ (u v : Value) (c : Duration), u.Lasts c → v.Lasts d → (u.setNumber v.number).Lasts e) ∧
      (0 ≤ d.nanos → ∀ v : Value, v.Lasts d → (standard mode profile).GivesTime "ABS" [v] e) := by
  refine ⟨_, d.restores_number, fun _ => rfl, ?_,
    fun nonneg v lasts => givesTime_abs mode profile lasts nonneg⟩
  intro u v c written lasts
  rw [lasts.number_eq_timeToNumber]
  exact written.setNumber _

/-- Of 2 ^ 53 + 1 ns, which LREAL does not hold, 2 ^ 53 ns come back. -/
theorem nanosecond_lost :
    ¬∀ d c : Duration, (⟨.time, d⟩ : Payload).number?.map (Payload.store ⟨.time, c⟩) = some ⟨.time, d⟩ := by
  intro always
  have same := Option.some.inj (always (.saturate 9007199254740993) .zero)
  have back : Layout.numberToTime (Layout.timeToNumber (.saturate 9007199254740993)) =
      .saturate 9007199254740993 :=
    eq_of_heq (Payload.mk.inj same).2
  exact absurd back (by decide +kernel)

end Library

end Plc
