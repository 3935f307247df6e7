import Plc.Proofs.Operator.Aggregate
import Plc.Proofs.Value.TimeSpan

/-!
# Generic operators on TIME

ADD, SUB and MUL take TIME as a number of milliseconds; ADD_TIME, SUB_TIME and MUL_TIME work on the
nanoseconds. Both ways hold the result at the limits of a duration, but the generic one first reduces the
number of milliseconds to 64 bits. A sum or a difference of durations is far from needing more, so there
the two ways always agree. A product with an integer of 64 bits may need more, and is then wrapped by the
one way and held at a limit by the other.

Main statements:

* `Library.standard_adds_time`: ADD and ADD_TIME, SUB and SUB_TIME.
* `Library.standard_scales_time`: MUL and MUL_TIME, and exactly when they agree.
-/

namespace Plc

open Value

theorem Number.ofInt_sub (m n : Int) : (.ofInt m - .ofInt n : Number) = .ofInt (m - n) := by
  refine congrArg Number.int (BitVec.eq_of_toInt_eq ?_)
  rw [BitVec.toInt_sub, BitVec.toInt_ofInt, BitVec.toInt_ofInt, BitVec.toInt_ofInt, ← Int.sub_bmod]

namespace Operator

variable {a b : Value} {d e : Duration}

/-! ## §1 The operators of durations -/

theorem addTime_run (first : a.Lasts d) (second : b.Lasts e) (result : Value) :
    (addTime a b).run result = .ok () (result.setDuration (d + e)) := by
  unfold addTime
  rw [Program.run_check_of_ok first.requireDuration_eq,
    Program.run_check_of_ok second.requireDuration_eq]
  rfl

theorem subTime_run (first : a.Lasts d) (second : b.Lasts e) (result : Value) :
    (subTime a b).run result = .ok () (result.setDuration (d - e)) := by
  unfold subTime
  rw [Program.run_check_of_ok first.requireDuration_eq,
    Program.run_check_of_ok second.requireDuration_eq]
  rfl

theorem scaled_number {k : Value} (int : k.AnyInt) (d : Duration) :
    scaled d k.number = .saturate (d.nanos * k.toInt) := by
  rw [int.word.number_eq_int]
  rfl

theorem mulTime_run {k : Value} (lasts : a.Lasts d) (int : k.AnyInt) (result : Value) :
    (mulTime a k).run result = .ok () (result.setDuration (.saturate (d.nanos * k.toInt))) := by
  have checked : k.require [.num] = .ok () := if_pos (int.belongsAny int.num List.mem_cons_self)
  unfold mulTime
  rw [Program.run_check_of_ok lasts.requireDuration_eq, Program.run_check_of_ok checked,
    ← scaled_number int d]
  rfl

/-! ## §2 The generic operators -/

/-- On a result of type NULL, a difference of two TIMEs is computed in milliseconds. -/
theorem sub_run (first : a.Lasts d) (second : b.Lasts e) (whole : d.Whole) (whole' : e.Whole)
    {result : Value} (wf : result.WellFormed) (null : result.type = .null) :
    (sub a b).run result =
      .ok () ((result.retype .time).setNumber (.ofInt (d.millis - e.millis))) := by
  have checked : a.require [.magnitude] = .ok () := if_pos first.belongsAny
  have checked' : b.require [.magnitude] = .ok () := if_pos second.belongsAny
  have wide : a.type.wider b.type = .time := by
    rw [first.type, second.type]
    rfl
  unfold sub
  rw [Program.run_check_of_ok checked, Program.run_check_of_ok checked', wide]
  change EStateM.Result.ok () ((result.widenTo .time).setNumber (a.number - b.number)) = _
  rw [widenTo_of_null wf null, first.number_eq whole, second.number_eq whole',
    Number.ofInt_sub]

/-- No operand that TIME outranks takes the type of the accumulated result away. -/
theorem Combines.lasts_accumulate {combine : Number → Number → Number} {total : List Int → Int}
    (combines : Combines combine total) {acc operand : Value} (lasts : acc.Lasts d) (whole : d.Whole)
    (le : operand.type.rank ≤ DataType.rank .time) {n : Int} (number : operand.number = .ofInt n) :
    (accumulate combine acc operand).Lasts (Layout.numberToTime (.ofInt (total [d.millis, n]))) := by
  have kept : acc.promote operand.type = acc := by
    rw [promote_eq, lasts.type, DataType.wider_of_le le, ← lasts.type, retype_self]
  unfold accumulate
  simp only [kept]
  rw [lasts.number_eq whole, number, combines.pair]
  exact lasts.setNumber _

end Operator

/-! ## §3 Calls -/

namespace Library

variable {lib : Library} {name : String} {a b : Value} {d e : Duration}

/-- Called on any container of type NULL, with the operands pushed one after the other, the library gives
the duration. Flags can only come from the container or from an operand. -/
def GivesTime (lib : Library) (name : String) (operands : List Value) (d : Duration) : Prop :=
  ∀ result : Value, result.WellFormed → result.type = .null →
    ∃ v, lib.call name result (.ofList operands) = ⟨.ok (), v, .empty⟩ ∧ v.Lasts d ∧
      (result.Unflagged → (∀ a ∈ operands, a.Unflagged) → v = .ofDuration d)

theorem GivesTime.unique {operands : List Value} (given : lib.GivesTime name operands d)
    (given' : lib.GivesTime name operands e) : d = e := by
  obtain ⟨v, reply, lasts, _⟩ := given .null (wellFormed_zero .null) rfl
  obtain ⟨v', reply', lasts', _⟩ := given' .null (wellFormed_zero .null) rfl
  obtain rfl : v = v' := congrArg Reply.result (reply.symm.trans reply')
  exact lasts.unique lasts'

/-- An operator of two operands that writes a duration. -/
theorem givesTime_of_run {apply : Value → Value → Action} (found : lib.find? name = some (.binary apply))
    (run : ∀ result, (apply a b).run result = .ok () (result.setDuration d)) :
    lib.GivesTime name [a, b] d := by
  intro result wf _
  have lasts := lasts_setDuration wf d
  exact ⟨_, call_binary_of_ok found (run result), lasts,
    fun plain _ => lasts.eq_ofDuration (plain.setDuration d)⟩

/-- A TIME that is popped first, and one operand after it. -/
theorem givesTime_of_combines {combine : Number → Number → Number} {total : List Int → Int}
    (combines : Operator.Combines combine total)
    (found : lib.find? name = some (.variadic (Operator.fold combine))) {acc operand : Value}
    (lasts : acc.Lasts d) (whole : d.Whole) (le : operand.type.rank ≤ DataType.rank .time)
    (magnitude : operand.belongsAny [.magnitude] = true) {n : Int} (number : operand.number = .ofInt n) :
    lib.GivesTime name [operand, acc] (Layout.numberToTime (.ofInt (total [d.millis, n]))) := by
  intro result _ _
  have pass : ∀ v ∈ [acc, operand], v.belongsAny [.magnitude] = true :=
    List.forall_mem_cons.mpr ⟨lasts.belongsAny, List.forall_mem_singleton.mpr magnitude⟩
  have accumulated := combines.lasts_accumulate lasts whole le number
  refine ⟨_, call_of_ok found (Operator.fold_run combine pass result), accumulated, ?_⟩
  intro _ plain
  have first : acc.Unflagged := plain acc (List.mem_cons_of_mem operand List.mem_cons_self)
  exact accumulated.eq_ofDuration (Operator.unflagged_accumulate combine first operand)

/-- Of two TIMEs on the stack, the one pushed last comes first in the sum. -/
theorem givesTime_add (found : lib.find? name = some (.variadic Operator.add)) (first : a.Lasts d)
    (second : b.Lasts e) (whole : d.Whole) (whole' : e.Whole) :
    lib.GivesTime name [a, b] (e + d) := by
  have le : a.type.rank ≤ DataType.rank .time := by rw [first.type]
  have sum := givesTime_of_combines Operator.combines_add found second whole' le first.belongsAny
    (first.number_eq whole)
  rw [List.sum_pair, whole'.numberToTime_add whole] at sum
  exact sum

theorem givesTime_sub (found : lib.find? name = some (.binary Operator.sub)) (first : a.Lasts d)
    (second : b.Lasts e) (whole : d.Whole) (whole' : e.Whole) :
    lib.GivesTime name [a, b] (d - e) := by
  intro result wf null
  have run := Operator.sub_run first second whole whole' wf null
  have lasts := (lasts_retype_null wf null).setNumber (.ofInt (d.millis - e.millis))
  rw [whole.numberToTime_sub whole'] at lasts
  exact ⟨_, call_binary_of_ok found run, lasts,
    fun plain _ => lasts.eq_ofDuration ((plain.retype .time).setNumber _)⟩

theorem givesTime_mul (found : lib.find? name = some (.variadic Operator.mul)) {t k : Value}
    (lasts : t.Lasts d) (whole : d.Whole) (int : k.AnyInt) :
    lib.GivesTime name [k, t] (.ofMillis ((d.millis * k.toInt).bmod (2 ^ 64))) := by
  have le : k.type.rank ≤ DataType.rank .time := by
    have each : ∀ t ∈ DataType.all, t.belongs .int = true → t.rank ≤ DataType.rank .time := by decide
    exact each k.type k.type.mem_all int.int
  have product := givesTime_of_combines Operator.combines_mul found lasts whole le
    (int.magnitude_belongsAny List.mem_cons_self) int.word.number_eq
  rw [List.prod_pair, Layout.numberToTime_ofInt] at product
  exact product

theorem find?_sub (mode : PowerMode) (profile : LiteralProfile) :
    (standard mode profile).find? "SUB" = some (.binary Operator.sub) :=
  find?_standard profile (by simp [standardEntries])

theorem find?_addTime (mode : PowerMode) (profile : LiteralProfile) :
    (standard mode profile).find? "ADD_TIME" = some (.binary Operator.addTime) :=
  find?_standard profile (by simp [standardEntries])

theorem find?_subTime (mode : PowerMode) (profile : LiteralProfile) :
    (standard mode profile).find? "SUB_TIME" = some (.binary Operator.subTime) :=
  find?_standard profile (by simp [standardEntries])

theorem find?_mulTime (mode : PowerMode) (profile : LiteralProfile) :
    (standard mode profile).find? "MUL_TIME" = some (.binary Operator.mulTime) :=
  find?_standard profile (by simp [standardEntries])

/-- On whole milliseconds the generic operators add and subtract as those of durations do: exactly, and
held at the limits. Terms may be pushed in either order. -/
theorem standard_adds_time (mode : PowerMode) (profile : LiteralProfile) (first : a.Lasts d)
    (second : b.Lasts e) (whole : d.Whole) (whole' : e.Whole) :
    (∀ terms : List Value, terms.Perm [a, b] →
      (standard mode profile).GivesTime "ADD" terms (d + e)) ∧
    (standard mode profile).GivesTime "ADD_TIME" [a, b] (d + e) ∧
    (standard mode profile).GivesTime "SUB" [a, b] (d - e) ∧
    (standard mode profile).GivesTime "SUB_TIME" [a, b] (d - e) := by
  have comm : d + e = e + d := congrArg Duration.saturate (Int.add_comm d.nanos e.nanos)
  refine ⟨?_, givesTime_of_run (find?_addTime mode profile) (Operator.addTime_run first second),
    givesTime_sub (find?_sub mode profile) first second whole whole',
    givesTime_of_run (find?_subTime mode profile) (Operator.subTime_run first second)⟩
  intro terms perm
  rcases List.perm_pair.mp perm with rfl | rfl
  · rw [comm]
    exact givesTime_add (find?_add mode profile) first second whole whole'
  · exact givesTime_add (find?_add mode profile) second first whole' whole

/-- Twice the greatest number of milliseconds saturates, and what is below zero by twice as many does
too. -/
theorem standard_adds_time_saturated :
    let lib := standard .power {}
    let greatest := Value.ofDuration (.ofMillis 9223372036854)
    let least := Value.ofDuration (.ofMillis (-9223372036854))
    lib.GivesTime "ADD" [greatest, greatest] (.saturate (2 ^ 63 - 1)) ∧
      lib.GivesTime "ADD_TIME" [greatest, greatest] (.saturate (2 ^ 63 - 1)) ∧
      lib.GivesTime "SUB" [least, greatest] (.saturate (-2 ^ 63)) ∧
      lib.GivesTime "SUB_TIME" [least, greatest] (.saturate (-2 ^ 63)) := by
  intro lib greatest least
  have lasts : greatest.Lasts (.ofMillis 9223372036854) := lasts_ofDuration _
  have lasts' : least.Lasts (.ofMillis (-9223372036854)) := lasts_ofDuration _
  have whole : (Duration.ofMillis 9223372036854).Whole := by decide
  have whole' : (Duration.ofMillis (-9223372036854)).Whole := by decide
  have sums := standard_adds_time .power {} lasts lasts whole whole
  have differences := standard_adds_time .power {} lasts' lasts whole' whole
  exact ⟨sums.1 _ (List.Perm.refl _), sums.2.1, differences.2.2.1, differences.2.2.2⟩

/-- A duration of whole milliseconds times an integer, computed in nanoseconds and in milliseconds. -/
structure ScalesTime (lib : Library) (t k : Value) (millis : Int) : Prop where
  /-- The exact product, held at the limits. -/
  specific : lib.GivesTime "MUL_TIME" [t, k] (.ofMillis millis)
  /-- The product is reduced to 64 bits before it is held at the limits. -/
  generic : lib.GivesTime "MUL" [k, t] (.ofMillis (millis.bmod (2 ^ 64)))
  /-- The two agree as long as the product has 64 bits as a number of milliseconds, and beyond only where
  its wrapping lands behind the limit that it passed. -/
  agree_iff : (∃ e, lib.GivesTime "MUL_TIME" [t, k] e ∧ lib.GivesTime "MUL" [k, t] e) ↔
    (-2 ^ 63 ≤ millis ∧ millis < 2 ^ 63) ∨
      (2 ^ 63 ≤ millis ∧ 9223372036855 ≤ millis.bmod (2 ^ 64)) ∨
      (millis < -2 ^ 63 ∧ millis.bmod (2 ^ 64) ≤ -9223372036855)

/-- What MUL_TIME and MUL make of a TIME and an integer, the TIME being popped first by MUL. -/
theorem standard_scales_time (mode : PowerMode) (profile : LiteralProfile) {t k : Value}
    (lasts : t.Lasts d) (whole : d.Whole) (int : k.AnyInt) :
    ScalesTime (standard mode profile) t k (d.millis * k.toInt) := by
  have specific := givesTime_of_run (find?_mulTime mode profile) (Operator.mulTime_run lasts int)
  have generic := givesTime_mul (find?_mul mode profile) lasts whole int
  rw [← whole.ofMillis_mul] at specific
  refine ⟨specific, generic, ?_⟩
  rw [← Duration.ofMillis_bmod_iff]
  constructor
  · rintro ⟨e, given, given'⟩
    rw [generic.unique given', specific.unique given]
  · intro same
    exact ⟨_, specific, same ▸ generic⟩

/-- Nearly the greatest TIME, times minus two: both products are held at the least one. -/
theorem standard_scales_time_saturated :
    let lib := standard .power {}
    let t := Value.ofDuration (.ofMillis 9223372036854)
    let k := Value.ofNumber .dint (.ofInt (-2))
    ScalesTime lib t k (-18446744073708) ∧ lib.GivesTime "MUL_TIME" [t, k] (.saturate (-2 ^ 63)) ∧
      lib.GivesTime "MUL" [k, t] (.saturate (-2 ^ 63)) := by
  intro lib t k
  have lasts : t.Lasts (.ofMillis 9223372036854) := lasts_ofDuration _
  have whole : (Duration.ofMillis 9223372036854).Whole := by decide
  have int : k.AnyInt := .ofNumber rfl _
  have product : (Duration.ofMillis 9223372036854).millis * k.toInt = -18446744073708 := by
    decide +kernel
  have scales := standard_scales_time .power {} lasts whole int
  rw [product] at scales
  have held : Duration.ofMillis (-18446744073708) = .saturate (-2 ^ 63) := by decide
  have held' : Duration.ofMillis ((-18446744073708 : Int).bmod (2 ^ 64)) = .saturate (-2 ^ 63) := by
    decide
  exact ⟨scales, held ▸ scales.specific, held' ▸ scales.generic⟩

/-- A millisecond times 2 ^ 63 is held at the greatest duration by the one way; the other wraps it first
and ends at the least duration. -/
theorem scaling_disagrees :
    ¬∀ (mode : PowerMode) (profile : LiteralProfile) (t k : Value) (d : Duration), t.Lasts d → d.Whole →
      k.AnyInt → ∃ e, (standard mode profile).GivesTime "MUL_TIME" [t, k] e ∧
        (standard mode profile).GivesTime "MUL" [k, t] e := by
  intro always
  have lasts := lasts_ofDuration (.ofMillis 1)
  have whole : (Duration.ofMillis 1).Whole := by decide
  have int : (ofNumber .ulint (.ofInt (2 ^ 63))).AnyInt := .ofNumber rfl _
  obtain ⟨e, specific, generic⟩ := always .power {} _ _ _ lasts whole int
  have held := specific.unique
    (givesTime_of_run (find?_mulTime .power {}) (Operator.mulTime_run lasts int))
  have wrapped := generic.unique (givesTime_mul (find?_mul .power {}) lasts whole int)
  rw [held] at wrapped
  exact absurd wrapped (by decide +kernel)

end Library

end Plc
