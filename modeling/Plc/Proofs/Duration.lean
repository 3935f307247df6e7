import Plc.Duration

/-!
# Truncated durations

Truncation rounds a duration down to a multiple of the resolution. Close to the lower limit no such multiple
may be left in the range of durations, and then the reckoning overflows. It does so nowhere else: wherever
there is a duration to round down to, truncation comes to it.

## Architecture

- **Rounding down**: the last multiple not above a duration, among all integers, and whether it is a duration.
- **Truncation**: the same in steps of 64 bits.

Main statements:

* `IsFloor.greatest`, `IsFloor.unique`, `hasFloor_iff`: the last multiple, and whether it is a duration.
* `truncateTo?_eq_some_iff`: truncation comes to the last multiple, and to nothing else.
* `truncates_down_iff`: it rounds down, changes nothing a second time and keeps the order, exactly where there
  is something to round down to.
-/

namespace Plc.Duration

variable {d e r t : Duration} {m n : Int}

/-! ## §1 Rounding down -/

/-- The last multiple of `r` that is not above `d`. -/
structure IsFloor (d r : Duration) (n : Int) : Prop where
  multiple : r.nanos ∣ n
  le : n ≤ d.nanos
  near : d.nanos - n < r.nanos

/-- There is a duration to round down to: a multiple of `r` that is not above `d`. -/
def HasFloor (d r : Duration) : Prop := ∃ m : Duration, r.nanos ∣ m.nanos ∧ m.nanos ≤ d.nanos

namespace IsFloor

/-- The next multiple is a whole resolution further up, and so above the duration. -/
theorem greatest (floor : d.IsFloor r n) (multiple : r.nanos ∣ m) (le : m ≤ d.nanos) : m ≤ n := by
  refine Int.not_lt.mp fun above => ?_
  have step : r.nanos ≤ m - n :=
    Int.le_of_dvd (by omega) (Int.dvd_sub multiple floor.multiple)
  have near := floor.near
  omega

theorem unique (floor : d.IsFloor r m) (floor' : d.IsFloor r n) : m = n :=
  Int.le_antisymm (floor'.greatest floor.multiple floor.le) (floor.greatest floor'.multiple floor'.le)

theorem mono (floor : d.IsFloor r m) (floor' : e.IsFloor r n) (le : d.nanos ≤ e.nanos) : m ≤ n :=
  floor'.greatest floor.multiple (Int.le_trans floor.le le)

end IsFloor

theorem HasFloor.mono (has : d.HasFloor r) (le : d.nanos ≤ e.nanos) : e.HasFloor r := by
  obtain ⟨m, multiple, before⟩ := has
  exact ⟨m, multiple, Int.le_trans before le⟩

section Positive

variable (positive : 0 < r.nanos)
include positive

theorem isFloor_sub_emod (d : Duration) : d.IsFloor r (d.nanos - d.nanos % r.nanos) where
  multiple := Int.dvd_self_sub_emod
  le := Int.sub_le_self _ (Int.emod_nonneg _ (Int.ne_of_gt positive))
  near := by
    have rest := Int.emod_lt_of_pos d.nanos positive
    omega

/-- A multiple is its own floor. -/
theorem isFloor_self (multiple : r.nanos ∣ d.nanos) : d.IsFloor r d.nanos :=
  ⟨multiple, Int.le_refl _, by omega⟩

theorem hasFloor_iff : d.HasFloor r ↔ -2 ^ 63 ≤ d.nanos - d.nanos % r.nanos := by
  have floor := isFloor_sub_emod positive d
  constructor
  · rintro ⟨m, multiple, le⟩
    exact Int.le_trans m.least_le (floor.greatest multiple le)
  · intro least
    exact ⟨⟨_, least, Int.lt_of_le_of_lt floor.le d.lt_limit⟩, floor.multiple, floor.le⟩

/-! ## §2 Truncation -/

/-- The rest is less than the resolution, so that of the steps only the difference can overflow. -/
theorem truncateTo?_eq_some_iff : d.truncateTo? r = some t ↔ d.IsFloor r t.nanos := by
  have whole : (Checked.ofInt d.nanos).Is d.nanos := Checked.is_ofInt d.fits
  have rest : (Checked.ofInt d.nanos % Checked.ofInt r.nanos).Is (d.nanos % r.nanos) :=
    whole.emod (Checked.is_ofInt r.fits) d.fits r.fits positive
  have reckoned : d.truncateTo? r = some t ↔
      Checked.Fits (d.nanos - d.nanos % r.nanos) ∧ d.nanos - d.nanos % r.nanos = t.nanos := by
    unfold truncateTo?
    rw [if_neg (Int.not_le.mpr positive), ofChecked?_eq_some_iff]
    exact Checked.step_is_iff whole rest
  rw [reckoned]
  constructor
  · rintro ⟨_, same⟩
    rw [← same]
    exact isFloor_sub_emod positive d
  · intro floor
    have same := (isFloor_sub_emod positive d).unique floor
    exact ⟨same ▸ t.fits, same⟩

theorem exists_truncateTo?_iff : (∃ t, d.truncateTo? r = some t) ↔ d.HasFloor r := by
  constructor
  · rintro ⟨t, truncated⟩
    have floor := (truncateTo?_eq_some_iff positive).mp truncated
    exact ⟨t, floor.multiple, floor.le⟩
  · intro has
    have floor := isFloor_sub_emod positive d
    have least := (hasFloor_iff positive).mp has
    refine ⟨⟨_, least, Int.lt_of_le_of_lt floor.le d.lt_limit⟩, ?_⟩
    exact (truncateTo?_eq_some_iff positive).mpr floor

theorem truncateTo?_self (multiple : r.nanos ∣ d.nanos) : d.truncateTo? r = some d :=
  (truncateTo?_eq_some_iff positive).mpr (isFloor_self positive multiple)

/-- A later duration has something to round down to as well, and comes out no earlier. -/
theorem truncateTo?_mono (truncated : d.truncateTo? r = some t) (le : d.nanos ≤ e.nanos) :
    ∃ u, e.truncateTo? r = some u ∧ t.nanos ≤ u.nanos := by
  have has : d.HasFloor r := (exists_truncateTo?_iff positive).mp ⟨t, truncated⟩
  obtain ⟨u, truncated'⟩ := (exists_truncateTo?_iff positive).mpr (has.mono le)
  have floor := (truncateTo?_eq_some_iff positive).mp truncated
  have floor' := (truncateTo?_eq_some_iff positive).mp truncated'
  exact ⟨u, truncated', floor.mono floor' le⟩

end Positive

/-- With a positive resolution, truncation comes to a duration exactly if some duration is a multiple of the
resolution and not above the truncated one: if the last multiple before it still has 64 bits. Elsewhere it
overflows. What it comes to is that last multiple; it changes nothing when it is done once more, and no later
duration overflows or comes out earlier. -/
theorem truncates_down_iff (d : Duration) (positive : 0 < r.nanos) :
    (d.HasFloor r ↔ -2 ^ 63 ≤ d.nanos - d.nanos % r.nanos) ∧
      ((∃ t, d.truncateTo? r = some t) ↔ d.HasFloor r) ∧
      ∀ t, (d.truncateTo? r = some t ↔ d.IsFloor r t.nanos) ∧
        (d.truncateTo? r = some t → t.truncateTo? r = some t ∧
          ∀ e : Duration, d.nanos ≤ e.nanos → ∃ u, e.truncateTo? r = some u ∧ t.nanos ≤ u.nanos) := by
  refine ⟨hasFloor_iff positive, exists_truncateTo?_iff positive, fun t => ⟨?_, fun truncated => ⟨?_, ?_⟩⟩⟩
  · exact truncateTo?_eq_some_iff positive
  · exact truncateTo?_self positive ((truncateTo?_eq_some_iff positive).mp truncated).multiple
  · exact fun e le => truncateTo?_mono positive truncated le

/-- In microseconds, the last nanosecond before the second multiple that there is. -/
theorem truncates_down_to_first_multiple :
    let d : Duration := .saturate (-9223372036854774001)
    let t : Duration := .saturate (-9223372036854775000)
    0 < (ofMicros 1).nanos ∧ d.truncateTo? (ofMicros 1) = some t ∧ d.IsFloor (ofMicros 1) t.nanos ∧
      t.truncateTo? (ofMicros 1) = some t := by
  intro d t
  have positive : 0 < (ofMicros 1).nanos := by decide
  have truncated : d.truncateTo? (ofMicros 1) = some t := by decide
  obtain ⟨_, _, floors⟩ := truncates_down_iff d positive
  exact ⟨positive, truncated, (floors t).1.mp truncated, ((floors t).2 truncated).1⟩

/-- The least duration has no multiple of a microsecond below it, and its truncation overflows. -/
theorem least_not_truncated_down :
    0 < (ofMicros 1).nanos ∧ (saturate (-2 ^ 63)).truncateTo? (ofMicros 1) = none := by
  decide

end Plc.Duration
