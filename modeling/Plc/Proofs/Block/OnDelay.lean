import Plc.Proofs.Block.TimerRun

/-!
# On-delay timers

While its input is true, an on-delay timer measures the time since the input turned true; a false
input sets it back. So output and elapsed time can be told from the last spell of the input alone, for
any presets and any clock.

Main statements:

* `TimerState.onDelay_true`: one step under a true input.
* `OnDelay.after_of_on`: the state after a call is that of a measurement from the start of the spell.
* `OnDelay.law_of_valid`: the law of the on-delay timer; with one preset and a clock that does not go
  back, elapsed time and output only ever grow within a spell.
-/

namespace Plc

namespace TimerState

/-- A measurement that began at `start` and is looked at now. -/
def measuring (preset start now : Duration) : TimerState where
  output := decide (preset.nanos ≤ (now - start).nanos)
  preset := preset
  elapsed := (now - start).least preset
  running := true
  start := start

/-- The output compares the preset with a time that is already cut off at it, which comes to the
same. -/
theorem onDelay_true (s : TimerState) (now : Duration) :
    s.onDelay true now = measuring s.preset (if s.running then s.start else now) now := by
  have cut (d : Duration) :
      s.preset.nanos ≤ (d.least s.preset).nanos ↔ s.preset.nanos ≤ d.nanos := by
    rw [Duration.nanos_least]
    omega
  cases running : s.running with
  | true => simp [onDelay, begin, sinceStart, measuring, running, cut]
  | false => simp [onDelay, begin, sinceStart, measuring, running, cut]

theorem onDelay_false (s : TimerState) (now : Duration) : s.onDelay false now = armed s.preset := rfl

end TimerState

namespace OnDelay

variable {calls : Nat → TimerCall} {pt : Duration} {i k n : Nat}

/-- The state of the timer after the call of number `i`. -/
def after (calls : Nat → TimerCall) (i : Nat) : TimerState := timerState Block.ton calls (i + 1)

/-! ## §1 The state after a call -/

section Valid

variable (valid : ∀ j < n, (calls j).Valid)
include valid

theorem after_zero (lt : 0 < n) :
    after calls 0 =
      (TimerState.withPreset {} (calls 0).pt).onDelay (calls 0).on (calls 0).now :=
  timerState_succ TimerState.onDelay valid lt

theorem after_succ (lt : i + 1 < n) :
    after calls (i + 1) =
      ((after calls i).withPreset (calls (i + 1)).pt).onDelay (calls (i + 1)).on
        (calls (i + 1)).now :=
  timerState_succ TimerState.onDelay valid lt

theorem after_of_off (lt : i < n) (off : (calls i).on = false) :
    after calls i = .armed (calls i).pt := by
  cases i with
  | zero => rw [after_zero valid lt, off, TimerState.onDelay_false]; rfl
  | succ i => rw [after_succ valid lt, off, TimerState.onDelay_false]; rfl

/-- The induction is on the number of the call: either the spell goes on, and with it the measurement,
or the call before left the timer at rest. -/
theorem after_of_on (lt : i < n) (on : (calls i).on = true) :
    ∃ s, Spell calls true s i ∧
      after calls i = .measuring (calls i).pt (calls s).now (calls i).now := by
  induction i with
  | zero =>
    refine ⟨0, .zero on, ?_⟩
    rw [after_zero valid lt, on, TimerState.onDelay_true]
    rfl
  | succ i ih =>
    have lt' := Nat.lt_of_succ_lt lt
    cases before : (calls i).on with
    | true =>
      obtain ⟨s, spell, state⟩ := ih lt' before
      refine ⟨s, spell.succ on, ?_⟩
      rw [after_succ valid lt, on, TimerState.onDelay_true, state]
      rfl
    | false =>
      have state := after_of_off valid lt' before
      refine ⟨i + 1, .begins before on, ?_⟩
      rw [after_succ valid lt, on, TimerState.onDelay_true, state]
      rfl

/-- All calls of a spell measure from one start. -/
theorem after_of_spell (le : i ≤ k) (lt : k < n) (on : ∀ j, i ≤ j → j ≤ k → (calls j).on = true) :
    ∃ s, after calls i = .measuring (calls i).pt (calls s).now (calls i).now ∧
      after calls k = .measuring (calls k).pt (calls s).now (calls k).now := by
  obtain ⟨s, spell, first⟩ :=
    after_of_on valid (Nat.lt_of_le_of_lt le lt) (on i (Nat.le_refl i) le)
  obtain ⟨s', spell', last⟩ := after_of_on valid lt (on k le (Nat.le_refl k))
  obtain rfl := (spell.extend le on).unique spell'
  exact ⟨s, first, last⟩

end Valid

/-! ## §2 The law of the on-delay timer -/

/-- What the call of number `i` does, told by the history of the run. -/
structure Law (calls : Nat → TimerCall) (i : Nat) : Prop where
  succeeds : (calls i).status Block.ton (timerBefore Block.ton calls i) = .ok ()
  off : (calls i).on = false →
    (after calls i).output = false ∧ (after calls i).elapsed = .zero
  on : (calls i).on = true → ∃ s, Spell calls true s i ∧
    (after calls i).elapsed = ((calls i).now - (calls s).now).least (calls i).pt ∧
    ((after calls i).output = true ↔ (calls i).pt.nanos ≤ ((calls i).now - (calls s).now).nanos)
  /-- The container for the elapsed time, if it is wanted, holds that of the timer. -/
  handed : ((calls i).outputs Block.ton (timerBefore Block.ton calls i)).elapsed.map
      Value.duration? = (calls i).elapsed.map fun _ => some (after calls i).elapsed

theorem law (valid : ∀ j < n, (calls j).Valid) (lt : i < n) : Law calls i where
  succeeds := status_timerBefore valid lt
  off off := by
    rw [after_of_off valid lt off]
    exact ⟨rfl, rfl⟩
  on on := by
    obtain ⟨s, spell, state⟩ := after_of_on valid lt on
    rw [state]
    exact ⟨s, spell, rfl, decide_eq_true_iff⟩
  handed := handed_timerBefore valid lt

/-- The first `n` calls ask for one preset, which is not negative, and read a clock that never goes
back. -/
structure Steady (calls : Nat → TimerCall) (pt : Duration) (n : Nat) : Prop where
  preset : ∀ i < n, (calls i).pt = pt
  nonneg : 0 ≤ pt.nanos
  ordered : ∀ i j, i ≤ j → j < n → (calls i).now.nanos ≤ (calls j).now.nanos

/-- The elapsed time stays between zero and the preset, and while the input is true neither does it
fall nor does the output. -/
structure Grows (calls : Nat → TimerCall) (pt : Duration) (n : Nat) : Prop where
  bounds : ∀ i < n, 0 ≤ (after calls i).elapsed.nanos ∧ (after calls i).elapsed.nanos ≤ pt.nanos
  elapsed : ∀ i k, i ≤ k → k < n → (∀ j, i ≤ j → j ≤ k → (calls j).on = true) →
    (after calls i).elapsed.nanos ≤ (after calls k).elapsed.nanos
  output : ∀ i k, i ≤ k → k < n → (∀ j, i ≤ j → j ≤ k → (calls j).on = true) →
    (after calls i).output = true → (after calls k).output = true

section Steady

variable (valid : ∀ j < n, (calls j).Valid) (steady : Steady calls pt n)
include valid steady

theorem elapsed_bounds (lt : i < n) :
    0 ≤ (after calls i).elapsed.nanos ∧ (after calls i).elapsed.nanos ≤ pt.nanos := by
  have nonneg := steady.nonneg
  cases on : (calls i).on with
  | true =>
    obtain ⟨s, spell, state⟩ := after_of_on valid lt on
    -- The spell began at no later reading, so that no negative time has passed.
    have passed : 0 ≤ ((calls i).now - (calls s).now).nanos := by
      have ordered := steady.ordered s i spell.le lt
      rw [Duration.nanos_sub]
      omega
    rw [state, steady.preset i lt]
    simp only [TimerState.measuring, Duration.nanos_least]
    omega
  | false =>
    rw [after_of_off valid lt on]
    exact ⟨Int.le_refl 0, nonneg⟩

/-- Within a spell, the later of two calls measures the longer time against the same preset. -/
theorem spans_of_spell (le : i ≤ k) (lt : k < n) (on : ∀ j, i ≤ j → j ≤ k → (calls j).on = true) :
    ∃ start : Duration, after calls i = .measuring pt start (calls i).now ∧
      after calls k = .measuring pt start (calls k).now ∧
      ((calls i).now - start).nanos ≤ ((calls k).now - start).nanos := by
  obtain ⟨s, first, last⟩ := after_of_spell valid le lt on
  rw [steady.preset i (Nat.lt_of_le_of_lt le lt)] at first
  rw [steady.preset k lt] at last
  exact ⟨(calls s).now, first, last, Duration.sub_mono _ (steady.ordered i k le lt)⟩

theorem grows : Grows calls pt n where
  bounds i lt := elapsed_bounds valid steady lt
  elapsed i k le lt on := by
    obtain ⟨start, first, last, span⟩ := spans_of_spell valid steady le lt on
    rw [first, last]
    simp only [TimerState.measuring, Duration.nanos_least]
    omega
  output i k le lt on := by
    obtain ⟨start, first, last, span⟩ := spans_of_spell valid steady le lt on
    rw [first, last]
    simp only [TimerState.measuring, decide_eq_true_eq]
    omega

end Steady

/-- Whatever the inputs, presets and readings of valid calls are, each follows the law of the on-delay
timer; and under one preset and a clock that never goes back the timer only grows. -/
theorem law_of_valid (valid : ∀ i < n, (calls i).Valid) :
    (∀ i < n, Law calls i) ∧ ∀ pt, Steady calls pt n → Grows calls pt n :=
  ⟨fun _ lt => law valid lt, fun _ steady => grows valid steady⟩

/-- A call every 60 ms under a preset of 100 ms, with a true input in all but the first one. -/
def raised (i : Nat) : TimerCall where
  input := .ofNumber .bool (.ofBool (i ≠ 0))
  preset := .ofDuration (.ofMillis 100)
  elapsed := some (.zero .time)
  now := .ofMillis (60 * i)

/-- Two calls after the input has turned true, the preset is reached. -/
theorem law_of_valid_raised :
    (∀ i < 4, (raised i).Valid) ∧ Steady raised (.ofMillis 100) 4 ∧ Law raised 3 ∧
      Grows raised (.ofMillis 100) 4 ∧ (after raised 2).output = false ∧
      (after raised 3).output = true ∧ (after raised 3).elapsed = .ofMillis 100 := by
  have valid : ∀ i < 4, (raised i).Valid :=
    fun _ _ => ⟨rfl, rfl, fun v wanted => by cases wanted; rfl⟩
  have steady : Steady raised (.ofMillis 100) 4 := {
    preset := fun _ _ => rfl
    nonneg := by decide
    ordered := fun i j le _ => by
      show (Duration.ofMillis (60 * i)).nanos ≤ (Duration.ofMillis (60 * j)).nanos
      rw [Duration.nanos_ofMillis, Duration.nanos_ofMillis]
      omega }
  obtain ⟨laws, grows⟩ := law_of_valid valid
  exact ⟨valid, steady, laws 3 (by decide), grows _ steady, by decide +kernel, by decide +kernel,
    by decide +kernel⟩

end OnDelay

end Plc
