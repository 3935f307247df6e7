import Plc.Proofs.Block.TimerRun

/-!
# Off-delay timers

The output of an off-delay timer follows a true input at once. When the input drops, the timer
measures the time since, and as soon as a call finds the preset of that call reached the output falls
and the elapsed time stays as it is. The output is the memory of the timer: once it has fallen,
nothing happens until the input is true again.

Main statements:

* `TimerState.offDelay_of_output`: one step under a false input, with the output still true.
* `OffDelay.Phase`, `OffDelay.phase_succ`: the invariant of a run, and that each call keeps it.
* `OffDelay.law_throughout`: the law of the off-delay timer, for any presets and any clock.
-/

namespace Plc

namespace TimerState

variable {s : TimerState} {now : Duration}

/-! ## §1 One step -/

/-- A measurement that began at `start` and is looked at now. With the preset reached it ends. -/
def lapsing (preset start now : Duration) : TimerState where
  output := decide ((now - start).nanos < preset.nanos)
  preset := preset
  elapsed := (now - start).least preset
  running := decide ((now - start).nanos < preset.nanos)
  start := start

theorem offDelay_of_output (output : s.output = true) :
    s.offDelay false now = lapsing s.preset (if s.running then s.start else now) now := by
  -- The time that is compared with the preset is already cut off at it.
  have cut (d : Duration) :
      s.preset.nanos ≤ (d.least s.preset).nanos ↔ ¬d.nanos < s.preset.nanos := by
    rw [Duration.nanos_least]
    omega
  cases running : s.running with
  | true =>
    by_cases pending : (now - s.start).nanos < s.preset.nanos
    · simp [offDelay, begin, sinceStart, lapsing, output, running, cut, pending]
    · simp [offDelay, begin, sinceStart, lapsing, output, running, cut, pending]
  | false =>
    by_cases pending : (now - now).nanos < s.preset.nanos
    · simp [offDelay, begin, sinceStart, lapsing, output, running, cut, pending]
    · simp [offDelay, begin, sinceStart, lapsing, output, running, cut, pending]

theorem offDelay_of_silent (silent : s.output = false) : s.offDelay false now = s := by
  simp [offDelay, silent]

end TimerState

namespace OffDelay

variable {calls : Nat → TimerCall} {i k n s : Nat}

/-- The state of the timer after the call of number `i`. -/
def after (calls : Nat → TimerCall) (i : Nat) : TimerState := timerState Block.tof calls (i + 1)

/-- The call of number `j` finds that the time since the call of number `s` has not reached the preset
yet. -/
def Pending (calls : Nat → TimerCall) (s j : Nat) : Prop :=
  ((calls j).now - (calls s).now).nanos < (calls j).pt.nanos

/-- In the spell from `s` to `i`, the call of number `k` is the first one to find the preset reached,
or the last one if none does. -/
structure Decides (calls : Nat → TimerCall) (s i k : Nat) : Prop where
  ge : s ≤ k
  le : k ≤ i
  pending : ∀ j, s ≤ j → j < k → Pending calls s j
  last : Pending calls s k → k = i

/-! ## §2 Phases -/

/-- Where the timer is after the call of number `i`, seen from the inputs so far. -/
inductive Phase (calls : Nat → TimerCall) (i : Nat) : Prop where
  /-- The input has never been true. -/
  | idle (untouched : ∀ j ≤ i, (calls j).on = false) (silent : (after calls i).output = false)
      (cleared : (after calls i).elapsed = .zero)
  /-- The input is true. -/
  | following (on : (calls i).on = true) (output : (after calls i).output = true)
      (stopped : (after calls i).running = false) (cleared : (after calls i).elapsed = .zero)
  /-- The input has dropped, and no call has found the preset reached. -/
  | waiting (s : Nat) (spell : Spell calls false s i) (touched : 0 < s)
      (pending : ∀ j, s ≤ j → j ≤ i → Pending calls s j) (output : (after calls i).output = true)
      (running : (after calls i).running = true) (start : (after calls i).start = (calls s).now)
      (elapsed : (after calls i).elapsed = ((calls i).now - (calls s).now).least (calls i).pt)
  /-- The input has dropped, and the call of number `k` has found the preset reached. -/
  | expired (s k : Nat) (spell : Spell calls false s i) (touched : 0 < s)
      (decides : Decides calls s i k) (reached : ¬Pending calls s k)
      (silent : (after calls i).output = false)
      (elapsed : (after calls i).elapsed = ((calls k).now - (calls s).now).least (calls k).pt)

theorem phase_of_lapsing (spell : Spell calls false s i) (touched : 0 < s)
    (pending : ∀ j, s ≤ j → j < i → Pending calls s j)
    (state : after calls i = .lapsing (calls i).pt (calls s).now (calls i).now) :
    Phase calls i := by
  by_cases now : Pending calls s i
  · refine .waiting s spell touched (fun j ge le => ?_) ?_ ?_ ?_ ?_
    · rcases Nat.lt_or_eq_of_le le with earlier | rfl
      · exact pending j ge earlier
      · exact now
    · rw [state]
      exact decide_eq_true now
    · rw [state]
      exact decide_eq_true now
    · rw [state]
      rfl
    · rw [state]
      rfl
  · have decides : Decides calls s i i :=
      ⟨spell.le, Nat.le_refl i, pending, fun pending => absurd pending now⟩
    refine .expired s i spell touched decides now ?_ ?_
    · rw [state]
      exact decide_eq_false now
    · rw [state]
      rfl

/-- The step of a call whose input is true wipes out whatever was before. -/
theorem phase_of_on (on : (calls i).on = true) {before : TimerState}
    (step : after calls i = before.offDelay (calls i).on (calls i).now) : Phase calls i := by
  rw [on] at step
  exact .following on (by rw [step]; rfl) (by rw [step]; rfl) (by rw [step]; rfl)

section Valid

variable (valid : ∀ j < n, (calls j).Valid)
include valid

theorem after_succ (lt : i + 1 < n) :
    after calls (i + 1) =
      ((after calls i).withPreset (calls (i + 1)).pt).offDelay (calls (i + 1)).on
        (calls (i + 1)).now :=
  timerState_succ TimerState.offDelay valid lt

theorem after_of_silent (lt : i + 1 < n) (off : (calls (i + 1)).on = false)
    (silent : (after calls i).output = false) :
    after calls (i + 1) = (after calls i).withPreset (calls (i + 1)).pt := by
  rw [after_succ valid lt, off]
  exact TimerState.offDelay_of_silent silent

theorem after_of_output (lt : i + 1 < n) (off : (calls (i + 1)).on = false)
    (output : (after calls i).output = true) :
    after calls (i + 1) = .lapsing (calls (i + 1)).pt
      (if (after calls i).running then (after calls i).start else (calls (i + 1)).now)
      (calls (i + 1)).now := by
  rw [after_succ valid lt, off]
  exact TimerState.offDelay_of_output output

theorem phase_zero (lt : 0 < n) : Phase calls 0 := by
  have step : after calls 0 =
      (TimerState.withPreset {} (calls 0).pt).offDelay (calls 0).on (calls 0).now :=
    timerState_succ TimerState.offDelay valid lt
  cases on : (calls 0).on with
  | true => exact phase_of_on on step
  | false =>
    rw [on, TimerState.offDelay_of_silent rfl] at step
    refine .idle (fun j le => ?_) (by rw [step]; rfl) (by rw [step]; rfl)
    obtain rfl := Nat.le_zero.mp le
    exact on

/-- Each call leads from phase to phase. Under a false input the output of the phase before decides
whether the timer measures or rests. -/
theorem phase_succ (lt : i + 1 < n) (phase : Phase calls i) : Phase calls (i + 1) := by
  cases on : (calls (i + 1)).on with
  | true => exact phase_of_on on (after_succ valid lt)
  | false =>
    cases phase with
    | idle untouched silent cleared =>
      have step := after_of_silent valid lt on silent
      refine .idle (fun j le => ?_) (by rw [step]; exact silent) (by rw [step]; exact cleared)
      rcases Nat.le_succ_iff.mp le with before | rfl
      · exact untouched j before
      · exact on
    | following before output stopped cleared =>
      -- The input drops with this call, from which the time is measured.
      have step := after_of_output valid lt on output
      rw [stopped] at step
      have none : ∀ j, i + 1 ≤ j → j < i + 1 → Pending calls (i + 1) j := fun j ge lt => by omega
      exact phase_of_lapsing (.begins before on) (Nat.succ_pos i) none step
    | waiting s spell touched pending output running start elapsed =>
      have step := after_of_output valid lt on output
      rw [running, start] at step
      have so_far : ∀ j, s ≤ j → j < i + 1 → Pending calls s j :=
        fun j ge lt => pending j ge (Nat.le_of_lt_succ lt)
      exact phase_of_lapsing (spell.succ on) touched so_far step
    | expired s k spell touched decides reached silent elapsed =>
      -- The call that found the preset reached stays the first one to do so.
      have step := after_of_silent valid lt on silent
      have decides' : Decides calls s (i + 1) k :=
        ⟨decides.ge, Nat.le_succ_of_le decides.le, decides.pending,
          fun pending => absurd pending reached⟩
      refine .expired s k (spell.succ on) touched decides' reached ?_ ?_
      · rw [step]
        exact silent
      · rw [step]
        exact elapsed

theorem phase (lt : i < n) : Phase calls i := by
  induction i with
  | zero => exact phase_zero valid lt
  | succ i ih => exact phase_succ valid lt (ih (Nat.lt_of_succ_lt lt))

end Valid

/-! ## §3 The law of the off-delay timer -/

/-- What the call of number `i` does, told by the history of the run. -/
structure Law (calls : Nat → TimerCall) (i : Nat) : Prop where
  succeeds : (calls i).status Block.tof (timerBefore Block.tof calls i) = .ok ()
  on : (calls i).on = true → (after calls i).output = true ∧ (after calls i).elapsed = .zero
  untouched : (∀ j ≤ i, (calls j).on = false) →
    (after calls i).output = false ∧ (after calls i).elapsed = .zero
  /-- The input has been true and has dropped: the output is true as long as all calls since have
  found the preset ahead, and the first one that has not settles the elapsed time. -/
  off : (calls i).on = false → (∃ j ≤ i, (calls j).on = true) → ∃ s, Spell calls false s i ∧
    ((after calls i).output = true ↔ ∀ j, s ≤ j → j ≤ i → Pending calls s j) ∧
    ∃ k, Decides calls s i k ∧
      (after calls i).elapsed = ((calls k).now - (calls s).now).least (calls k).pt
  /-- The container for the elapsed time, if it is wanted, holds that of the timer. -/
  handed : ((calls i).outputs Block.tof (timerBefore Block.tof calls i)).elapsed.map
      Value.duration? = (calls i).elapsed.map fun _ => some (after calls i).elapsed

theorem on_of_phase (phase : Phase calls i) (on : (calls i).on = true) :
    (after calls i).output = true ∧ (after calls i).elapsed = .zero := by
  have not_off {s : Nat} (spell : Spell calls false s i) : False := by
    have off := spell.same i spell.le (Nat.le_refl i)
    rw [on] at off
    cases off
  cases phase with
  | idle untouched silent cleared =>
    have off := untouched i (Nat.le_refl i)
    rw [on] at off
    cases off
  | following on output stopped cleared => exact ⟨output, cleared⟩
  | waiting s spell => exact (not_off spell).elim
  | expired s k spell => exact (not_off spell).elim

theorem untouched_of_phase (phase : Phase calls i) (untouched : ∀ j ≤ i, (calls j).on = false) :
    (after calls i).output = false ∧ (after calls i).elapsed = .zero := by
  -- A spell of false inputs that does not begin with the run comes after a true one.
  have not_touched {s : Nat} (spell : Spell calls false s i) (touched : 0 < s) : False := by
    obtain ⟨j, rfl⟩ := Nat.exists_eq_succ_of_ne_zero (Nat.ne_of_gt touched)
    have on := spell.maximal j rfl
    rw [untouched j (Nat.le_of_succ_le spell.le)] at on
    cases on
  cases phase with
  | idle untouched silent cleared => exact ⟨silent, cleared⟩
  | following on output stopped cleared =>
    rw [untouched i (Nat.le_refl i)] at on
    cases on
  | waiting s spell touched => exact (not_touched spell touched).elim
  | expired s k spell touched => exact (not_touched spell touched).elim

theorem off_of_phase (phase : Phase calls i) (off : (calls i).on = false)
    (touched : ∃ j ≤ i, (calls j).on = true) :
    ∃ s, Spell calls false s i ∧
      ((after calls i).output = true ↔ ∀ j, s ≤ j → j ≤ i → Pending calls s j) ∧
      ∃ k, Decides calls s i k ∧
        (after calls i).elapsed = ((calls k).now - (calls s).now).least (calls k).pt := by
  cases phase with
  | idle untouched silent cleared =>
    obtain ⟨j, le, on⟩ := touched
    rw [untouched j le] at on
    cases on
  | following on output stopped cleared =>
    rw [off] at on
    cases on
  | waiting s spell touched pending output running start elapsed =>
    have decides : Decides calls s i i :=
      ⟨spell.le, Nat.le_refl i, fun j ge lt => pending j ge (Nat.le_of_lt lt), fun _ => rfl⟩
    exact ⟨s, spell, iff_of_true output pending, i, decides, elapsed⟩
  | expired s k spell touched decides reached silent elapsed =>
    have fails : ¬∀ j, s ≤ j → j ≤ i → Pending calls s j :=
      fun pending => reached (pending k decides.ge decides.le)
    exact ⟨s, spell, iff_of_false (by simp [silent]) fails, k, decides, elapsed⟩

/-- Whatever the inputs, presets and readings of valid calls are, each follows the law of the
off-delay timer. -/
theorem law_throughout (valid : ∀ i < n, (calls i).Valid) (i : Nat) (lt : i < n) : Law calls i where
  succeeds := status_timerBefore valid lt
  on := on_of_phase (phase valid lt)
  untouched := untouched_of_phase (phase valid lt)
  off := off_of_phase (phase valid lt)
  handed := handed_timerBefore valid lt

/-- A call every 60 ms, with a true input in the first one only. The preset is 100 ms at first and
500 ms from the fifth call on. -/
def dropped (i : Nat) : TimerCall where
  input := .ofNumber .bool (.ofBool (i = 0))
  preset := .ofDuration (.ofMillis (if i < 4 then 100 else 500))
  elapsed := some (.zero .time)
  now := .ofMillis (60 * i)

/-- The fourth call finds the preset reached. The longer one of the fifth call does not bring the
output back, nor does it change the elapsed time. -/
theorem law_throughout_dropped :
    (∀ i < 5, (dropped i).Valid) ∧ Law dropped 4 ∧ (dropped 4).on = false ∧
      (∃ j ≤ 4, (dropped j).on = true) ∧ (after dropped 4).output = false ∧
      (after dropped 4).elapsed = .ofMillis 100 := by
  have valid : ∀ i < 5, (dropped i).Valid :=
    fun _ _ => ⟨rfl, rfl, fun v wanted => by cases wanted; rfl⟩
  exact ⟨valid, law_throughout valid 4 (by decide), rfl, ⟨0, by decide, rfl⟩,
    by decide +kernel, by decide +kernel⟩

end OffDelay

end Plc
