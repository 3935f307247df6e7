import Plc.Proofs.Library.Dispatch
import Plc.Proofs.Operator.Container
import Plc.Proofs.Operator.TimeNumber

/-!
# Durations held at their limits

ADD_TIME, SUB_TIME, MUL_TIME and DIV_TIME compute with exact nanoseconds and hold the result at the limits of
a duration. The exact product of a duration and an integer of any type needs 127 bits and a sign at most, and
a quotient no more than the duration, so there is nothing to be held or wrapped before the end. That makes
the duration which is nearest to the exact result, and a product which has not reached a limit is taken back by
the quotient.

Main statements:

* `Duration.Nearest`: the duration that an exact count of nanoseconds comes to.
* `Value.AnyInt.fits_mul`: products have room in wide words.
* `Library.standard_saturates`: the four operators on durations and integers, in any container.
-/

namespace Plc

open Value

/-! ## §1 The nearest duration -/

namespace Duration

variable {d : Duration} {n : Int}

/-- The duration has exactly `n` nanoseconds, or it is the limit that `n` lies beyond. -/
structure Nearest (d : Duration) (n : Int) : Prop where
  exactly : -2 ^ 63 ≤ n → n < 2 ^ 63 → d.nanos = n
  above : 2 ^ 63 ≤ n → d.nanos = 2 ^ 63 - 1
  below : n < -2 ^ 63 → d.nanos = -2 ^ 63

theorem nearest_saturate (n : Int) : (saturate n).Nearest n := by
  have held : (saturate n).nanos = max (-2 ^ 63) (min (2 ^ 63 - 1) n) := rfl
  constructor <;> omega

theorem saturate_nanos (d : Duration) : saturate d.nanos = d :=
  Duration.ext (nanos_saturate d.least_le d.lt_limit)

/-- A product that has not reached a limit is divided again without a rest. -/
theorem nanos_saturate_mul_tdiv {k : Int} (nonzero : k ≠ 0) (least : -2 ^ 63 ≤ d.nanos * k)
    (limit : d.nanos * k < 2 ^ 63) : (saturate (d.nanos * k)).nanos.tdiv k = d.nanos := by
  rw [nanos_saturate least limit, Int.mul_tdiv_cancel _ nonzero]

end Duration

namespace Value

variable {u v k : Value} {d : Duration} {n : Int}

/-- The largest factor there is times the longest duration is just within the range of wide words. -/
theorem AnyInt.fits_mul (int : k.AnyInt) (d : Duration) : Number.Fits (d.nanos * k.toInt) := by
  have bounds := int.bounds
  have factor : k.toInt.natAbs ≤ 2 ^ 64 - 1 := by omega
  have product : (d.nanos * k.toInt).natAbs ≤ 2 ^ 63 * (2 ^ 64 - 1) := by
    rw [Int.natAbs_mul]
    exact Nat.mul_le_mul d.natAbs_le factor
  exact ⟨by omega, by omega⟩

theorem fits_tdiv (d : Duration) (k : Int) : Number.Fits (d.nanos.tdiv k) := by
  have less := Int.natAbs_tdiv_le_natAbs d.nanos k
  have few := d.natAbs_le
  exact ⟨by omega, by omega⟩

theorem Lasts.alike (lasts : u.Lasts d) (lasts' : v.Lasts d) : u.Alike v where
  type := lasts.type.trans lasts'.type.symm
  categories := by rw [lasts.wf.categories, lasts'.wf.categories, lasts.type, lasts'.type]
  payload := lasts.payload.trans lasts'.payload.symm

/-- The value is a TIME, and the one nearest to `n` nanoseconds. -/
def LastsNearly (v : Value) (n : Int) : Prop := ∃ d, v.Lasts d ∧ d.Nearest n

theorem Lasts.lastsNearly (lasts : v.Lasts (.saturate n)) : v.LastsNearly n :=
  ⟨_, lasts, Duration.nearest_saturate n⟩

end Value

/-! ## §2 Quotients -/

namespace Operator

variable {t k : Value} {d : Duration}

theorem divided_number (int : k.AnyInt) (d : Duration) :
    divided d k.number = .saturate (d.nanos.tdiv k.toInt) := by
  rw [int.word.number_eq_int]
  rfl

theorem require_factor (int : k.AnyInt) : k.require [.num] = .ok () :=
  if_pos (int.belongsAny int.num List.mem_cons_self)

theorem divTime_run (lasts : t.Lasts d) (int : k.AnyInt) (nonzero : k.toInt ≠ 0) (result : Value) :
    (divTime t k).run result = .ok () (result.setDuration (.saturate (d.nanos.tdiv k.toInt))) := by
  have passed : Fault.notAllowedType.when k.number.isZero = .ok () :=
    if_neg fun isZero => nonzero (int.word.isZero_number.mp isZero)
  unfold divTime
  rw [Program.run_check_of_ok lasts.requireDuration_eq, Program.run_check_of_ok (require_factor int),
    Program.run_check_of_ok passed, ← divided_number int d]
  rfl

theorem divTime_run_of_zero (lasts : t.Lasts d) (int : k.AnyInt) (zero : k.toInt = 0) (result : Value) :
    (divTime t k).run result = .error .notAllowedType result := by
  have stopped : Fault.notAllowedType.when k.number.isZero = .error .notAllowedType :=
    if_pos (int.word.isZero_number.mpr zero)
  unfold divTime
  rw [Program.run_check_of_ok lasts.requireDuration_eq, Program.run_check_of_ok (require_factor int),
    Program.run_check_of_error stopped]

end Operator

/-! ## §3 Calls -/

namespace Library

variable {lib : Library} {name : String} {a b t k : Value} {c d e : Duration}

/-- No call both succeeds and stops. -/
theorem Fills.not_refuses {operands : List Value} {P : Value → Prop} (fills : lib.Fills name operands P)
    (fault : Fault) : ¬lib.Refuses name operands fault := by
  intro refuses
  obtain ⟨u, reply, _⟩ := fills .null (wellFormed_zero .null)
  rw [refuses .null] at reply
  exact absurd (congrArg Reply.status reply) (by simp)

/-- An operator that writes a duration writes it into any container. -/
theorem fills_of_setDuration {apply : Value → Value → Action} (found : lib.find? name = some (.binary apply))
    (run : ∀ result, (apply a b).run result = .ok () (result.setDuration d)) :
    lib.Fills name [a, b] (·.Lasts d) :=
  fills_fixed found #v[a, b] fun result wf => ⟨_, run result, lasts_setDuration wf d⟩

theorem find?_divTime (mode : PowerMode) (profile : LiteralProfile) :
    (standard mode profile).find? "DIV_TIME" = some (.binary Operator.divTime) :=
  find?_standard profile (by simp [standardEntries])

/-- What the operators make of the nanoseconds of three durations and an integer. -/
structure Saturates (lib : Library) (a b t k : Value) (c d e : Duration) : Prop where
  add : lib.Fills "ADD_TIME" [a, b] (·.LastsNearly (c.nanos + d.nanos))
  sub : lib.Fills "SUB_TIME" [a, b] (·.LastsNearly (c.nanos - d.nanos))
  mul : lib.Fills "MUL_TIME" [t, k] (·.LastsNearly (e.nanos * k.toInt))
  /-- The quotient is taken toward zero. -/
  div : k.toInt ≠ 0 → lib.Fills "DIV_TIME" [t, k] (·.LastsNearly (e.nanos.tdiv k.toInt))
  div_refused_iff : lib.Refuses "DIV_TIME" [t, k] .notAllowedType ↔ k.toInt = 0
  /-- Nothing has to be held or wrapped before the end. -/
  wide : Number.Fits (e.nanos * k.toInt) ∧ Number.Fits (e.nanos.tdiv k.toInt)
  /-- A product that has not reached a limit is taken back. -/
  back : k.toInt ≠ 0 → -2 ^ 63 ≤ e.nanos * k.toInt → e.nanos * k.toInt < 2 ^ 63 →
    lib.Fills "MUL_TIME" [t, k] fun u => lib.Fills "DIV_TIME" [u, k] (·.Alike t)

theorem fills_divTime (mode : PowerMode) (profile : LiteralProfile) (lasts : t.Lasts e) (int : k.AnyInt)
    (nonzero : k.toInt ≠ 0) :
    (standard mode profile).Fills "DIV_TIME" [t, k] (·.Lasts (.saturate (e.nanos.tdiv k.toInt))) :=
  fills_of_setDuration (find?_divTime mode profile) (Operator.divTime_run lasts int nonzero)

theorem fills_mulTime (mode : PowerMode) (profile : LiteralProfile) (lasts : t.Lasts e) (int : k.AnyInt) :
    (standard mode profile).Fills "MUL_TIME" [t, k] (·.Lasts (.saturate (e.nanos * k.toInt))) :=
  fills_of_setDuration (find?_mulTime mode profile) (Operator.mulTime_run lasts int)

/-- **TIME arithmetic.** Sums, differences, products with integers and truncated quotients by them are exact
as long as a duration has room for them, and are held at the limit beyond. -/
theorem standard_saturates (mode : PowerMode) (profile : LiteralProfile) (first : a.Lasts c)
    (second : b.Lasts d) (lasts : t.Lasts e) (int : k.AnyInt) :
    Saturates (standard mode profile) a b t k c d e where
  add := (fills_of_setDuration (find?_addTime mode profile) (Operator.addTime_run first second)).mono
    fun _ sum => sum.lastsNearly
  sub := (fills_of_setDuration (find?_subTime mode profile) (Operator.subTime_run first second)).mono
    fun _ difference => difference.lastsNearly
  mul := (fills_mulTime mode profile lasts int).mono fun _ product => product.lastsNearly
  div nonzero := (fills_divTime mode profile lasts int nonzero).mono fun _ quotient => quotient.lastsNearly
  div_refused_iff := by
    constructor
    · intro refuses
      by_contra nonzero
      exact (fills_divTime mode profile lasts int nonzero).not_refuses _ refuses
    · intro zero
      exact refuses_fixed (find?_divTime mode profile) #v[t, k] (Operator.divTime_run_of_zero lasts int zero)
  wide := ⟨int.fits_mul e, fits_tdiv e k.toInt⟩
  back nonzero least limit := by
    apply (fills_mulTime mode profile lasts int).mono
    intro u product
    apply (fills_divTime mode profile product int nonzero).mono
    intro w quotient
    rw [Duration.nanos_saturate_mul_tdiv nonzero least limit, Duration.saturate_nanos] at quotient
    exact quotient.alike lasts

/-- The least duration by minus one is held at the greatest one, and so is its product with minus one; by the
greatest factor there is, it stays the least. -/
theorem standard_saturates_least :
    let lib := standard .power {}
    let least := Value.ofDuration (.saturate (-2 ^ 63))
    let minus := Value.ofNumber .sint (.ofInt (-1))
    let most := Value.ofNumber .ulint (.ofInt (2 ^ 64 - 1))
    lib.Fills "DIV_TIME" [least, minus] (·.LastsNearly (2 ^ 63)) ∧
      lib.Fills "MUL_TIME" [least, minus] (·.LastsNearly (2 ^ 63)) ∧
      lib.Fills "MUL_TIME" [least, most] (·.LastsNearly (-2 ^ 63 * (2 ^ 64 - 1))) ∧
      lib.Refuses "DIV_TIME" [least, .zero .usint] .notAllowedType := by
  intro lib least minus most
  have lasts : least.Lasts (.saturate (-2 ^ 63)) := lasts_ofDuration _
  have minus_int : minus.AnyInt := .ofNumber rfl _
  have most_int : most.AnyInt := .ofNumber rfl _
  have zero_int : (zero .usint).AnyInt := ⟨wellFormed_zero .usint, rfl⟩
  have minus_toInt : minus.toInt = -1 := by decide +kernel
  have most_toInt : most.toInt = 2 ^ 64 - 1 := by decide +kernel
  have by_minus := standard_saturates .power {} lasts lasts lasts minus_int
  have by_most := standard_saturates .power {} lasts lasts lasts most_int
  have by_zero := standard_saturates .power {} lasts lasts lasts zero_int
  have quotient := by_minus.div (by decide +kernel)
  have product := by_minus.mul
  have greatest := by_most.mul
  rw [minus_toInt] at quotient product
  rw [most_toInt] at greatest
  exact ⟨quotient, product, greatest, by_zero.div_refused_iff.mpr rfl⟩

end Library

end Plc
