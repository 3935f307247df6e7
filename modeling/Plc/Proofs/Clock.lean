import Mathlib.Logic.Basic
import Plc.Clock

/-!
# A clock that is advanced by hand

An advance makes two sums of one reading and one step: the clock keeps the one, which wraps, and the other
is reported, which is held at the limit. They agree until a step passes the limit of durations. At that step
the clock reports a reading that it does not have, and is set back.

Main statements:

* `reported_eq_iff`, `reading_le_iff`: what a single step does, with and without an overflow.
* `reading_before`: what a clock reads after any steps, forward or back.
* `no_overflow_iff`: whether a run of forward steps overflows is seen from its first reading and its length.
* `steady_iff`: a clock that reports what it keeps, and never goes back.
-/

namespace Plc.ManualClock

variable {clock start : ManualClock} {step : Duration} {steps : Nat → Duration} {i j n : Nat}

/-! ## §1 One step -/

/-- The step leads past the last reading that there is. -/
def Overflows (clock : ManualClock) (step : Duration) : Prop :=
  2 ^ 63 ≤ clock.reading.nanos + step.nanos

theorem nanos_reported (clock : ManualClock) (step : Duration) :
    (clock.reported step).nanos =
      max (-2 ^ 63) (min (2 ^ 63 - 1) (clock.reading.nanos + step.nanos)) := rfl

section Forward

variable (forward : 0 ≤ step.nanos)
include forward

theorem reading_advance (within : ¬clock.Overflows step) :
    (clock.advance step).reading.nanos = clock.reading.nanos + step.nanos := by
  have least := clock.reading.least_le
  exact Duration.nanos_wrap_of_fits ⟨by omega, Int.not_le.mp within⟩

/-- A step past the limit takes one period off the sum, which is more than any step adds to it. -/
theorem reading_advance_of_overflows (overflows : clock.Overflows step) :
    (clock.advance step).reading.nanos = clock.reading.nanos + step.nanos - 2 ^ 64 := by
  have limit := clock.reading.lt_limit
  have limit' := step.lt_limit
  unfold Overflows at overflows
  exact Duration.nanos_wrap_eq ⟨by omega, by omega⟩ (by omega)

theorem reported_eq_iff :
    clock.reported step = (clock.advance step).reading ↔ ¬clock.Overflows step := by
  have least := clock.reading.least_le
  have limit := clock.reading.lt_limit
  have limit' := step.lt_limit
  rw [Duration.ext_iff, nanos_reported]
  by_cases overflows : clock.Overflows step
  · -- The limit is reported, while the sum is wrapped to below zero.
    rw [reading_advance_of_overflows forward overflows]
    unfold Overflows at overflows ⊢
    omega
  · rw [reading_advance forward overflows]
    unfold Overflows at overflows ⊢
    omega

theorem reading_le_iff :
    clock.reading.nanos ≤ (clock.advance step).reading.nanos ↔ ¬clock.Overflows step := by
  have limit := step.lt_limit
  by_cases overflows : clock.Overflows step
  · rw [reading_advance_of_overflows forward overflows]
    exact iff_of_false (by omega) (not_not.mpr overflows)
  · rw [reading_advance forward overflows]
    exact iff_of_true (by omega) overflows

end Forward

/-! ## §2 Runs -/

/-- The clock before the step of number `i`. -/
def before (start : ManualClock) (steps : Nat → Duration) : Nat → ManualClock
  | 0 => start
  | i + 1 => (before start steps i).advance (steps i)

/-- What the first `i` steps add up to. -/
def passed (steps : Nat → Duration) : Nat → Int
  | 0 => 0
  | i + 1 => passed steps i + (steps i).nanos

theorem passed_succ (steps : Nat → Duration) (i : Nat) :
    passed steps (i + 1) = passed steps i + (steps i).nanos := rfl

/-- Only the sum of all steps counts: what wraps on the way comes to the same as what wraps at its end. -/
theorem reading_before (start : ManualClock) (steps : Nat → Duration) (i : Nat) :
    (before start steps i).reading = .wrap (start.reading.nanos + passed steps i) := by
  induction i with
  | zero =>
    rw [passed, Int.add_zero]
    exact (Duration.wrap_nanos start.reading).symm
  | succ i ih =>
    show Duration.wrap ((before start steps i).reading.nanos + (steps i).nanos) = _
    rw [ih, Duration.wrap_wrap_add, passed_succ, Int.add_assoc]

section Forward

variable (forward : ∀ i < n, 0 ≤ (steps i).nanos)
include forward

theorem passed_le (le : i ≤ j) (le' : j ≤ n) : passed steps i ≤ passed steps j := by
  induction le with
  | refl => exact Int.le_refl _
  | step le ih =>
    have next := forward _ le'
    have before := ih (Nat.le_of_succ_le le')
    rw [passed_succ]
    omega

/-- Readings are exact until the sum of the steps passes the limit. -/
theorem nanos_before (le : i ≤ n) (within : start.reading.nanos + passed steps i < 2 ^ 63) :
    (before start steps i).reading.nanos = start.reading.nanos + passed steps i := by
  have least := start.reading.least_le
  have nonneg : 0 ≤ passed steps i := passed_le forward (Nat.zero_le i) le
  rw [reading_before]
  exact Duration.nanos_wrap_of_fits ⟨by omega, within⟩

theorem no_overflow_iff :
    (∀ i < n, ¬(before start steps i).Overflows (steps i)) ↔
      start.reading.nanos + passed steps n < 2 ^ 63 := by
  constructor
  · intro within
    -- Up to each step the run is exact, so that the step adds to the exact sum.
    suffices all : ∀ i ≤ n, start.reading.nanos + passed steps i < 2 ^ 63 from all n (Nat.le_refl n)
    intro i le
    induction i with
    | zero =>
      rw [passed, Int.add_zero]
      exact start.reading.lt_limit
    | succ i ih =>
      have exact_reading := nanos_before forward (Nat.le_of_succ_le le) (ih (Nat.le_of_succ_le le))
      have next := within i le
      unfold Overflows at next
      rw [passed_succ]
      omega
  · intro total i lt overflows
    -- The steps that are left only add to the sum, so that it is within the limit here already.
    have sum := passed_le forward (Nat.succ_le_of_lt lt) (Nat.le_refl n)
    have step := forward i lt
    rw [passed_succ] at sum
    unfold Overflows at overflows
    rw [nanos_before forward (Nat.le_of_lt lt) (by omega)] at overflows
    omega

end Forward

/-! ## §3 Steady clocks -/

/-- The advances of a run report what the clock keeps, and no reading is less than an earlier one. -/
structure Steady (start : ManualClock) (steps : Nat → Duration) (n : Nat) : Prop where
  reports : ∀ i < n,
    (before start steps i).reported (steps i) = (before start steps (i + 1)).reading
  ordered : ∀ i j, i ≤ j → j ≤ n →
    (before start steps i).reading.nanos ≤ (before start steps j).reading.nanos

/-- Forward steps keep a clock steady exactly if the first reading and all of them together stay below the
limit. Of the single steps of a run, the ones that overflow report a reading that the clock does not have,
and these are the ones that set it back. -/
theorem steady_iff (start : ManualClock) (forward : ∀ i < n, 0 ≤ (steps i).nanos) :
    (∀ i < n,
      ((before start steps i).reported (steps i) = (before start steps (i + 1)).reading ↔
        ¬(before start steps i).Overflows (steps i)) ∧
      ((before start steps i).reading.nanos ≤ (before start steps (i + 1)).reading.nanos ↔
        ¬(before start steps i).Overflows (steps i))) ∧
    (Steady start steps n ↔ start.reading.nanos + passed steps n < 2 ^ 63) := by
  refine ⟨fun i lt => ⟨reported_eq_iff (forward i lt), reading_le_iff (forward i lt)⟩, ?_, ?_⟩
  · intro steady
    exact (no_overflow_iff forward).mp fun i lt =>
      (reported_eq_iff (forward i lt)).mp (steady.reports i lt)
  · intro total
    have within : ∀ i ≤ n, start.reading.nanos + passed steps i < 2 ^ 63 := by
      intro i le
      have sum := passed_le forward le (Nat.le_refl n)
      omega
    refine ⟨fun i lt => ?_, fun i j le le' => ?_⟩
    · exact (reported_eq_iff (forward i lt)).mpr ((no_overflow_iff forward).mpr total i lt)
    · have sum := passed_le forward le le'
      rw [nanos_before forward (Nat.le_trans le le') (within i (Nat.le_trans le le')),
        nanos_before forward le' (within j le')]
      omega

/-- Two nanoseconds before the limit a clock has two steps of one nanosecond left. -/
theorem steady_up_to_limit :
    let start : ManualClock := ⟨.saturate (2 ^ 63 - 3)⟩
    let steps := fun _ : Nat => Duration.saturate 1
    (∀ i < 3, 0 ≤ (steps i).nanos) ∧ Steady start steps 2 ∧ ¬Steady start steps 3 := by
  intro start steps
  have forward : ∀ i < 3, 0 ≤ (steps i).nanos := fun _ _ => (by decide : 0 ≤ (Duration.saturate 1).nanos)
  have forward' : ∀ i < 2, 0 ≤ (steps i).nanos := fun i lt => forward i (Nat.lt_succ_of_lt lt)
  refine ⟨forward, (steady_iff start forward').2.mpr (by decide), fun steady => ?_⟩
  exact absurd ((steady_iff start forward).2.mp steady) (by decide)

/-- A clock at the last reading that there is reports this reading, but is set back to the first one. -/
theorem not_steady_at_limit :
    let start : ManualClock := ⟨.saturate (2 ^ 63 - 1)⟩
    let steps := fun _ : Nat => Duration.saturate 1
    (∀ i < 1, 0 ≤ (steps i).nanos) ∧ start.reported (steps 0) = start.reading ∧
      (before start steps 1).reading = .saturate (-2 ^ 63) ∧ ¬Steady start steps 1 := by
  intro start steps
  have back : ¬start.reading.nanos ≤ (before start steps 1).reading.nanos := by decide
  refine ⟨fun _ _ => (by decide : 0 ≤ (Duration.saturate 1).nanos), by decide, by decide, fun steady => ?_⟩
  exact back (steady.ordered 0 1 (by decide) (by decide))

end Plc.ManualClock
