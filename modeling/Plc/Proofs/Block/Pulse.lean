import Plc.Proofs.Block.TimerRun

/-!
# Pulse timers

A pulse timer is at rest, in a pulse, or holds the elapsed time of a pulse that is over. Which of
these it is can be told from the history of its run: from the calls that started a pulse, the inputs
since and the readings of the clock.

Main statements:

* `TimerState.pulse_of_rest`, `pulse_of_running`, `pulse_of_held`: one step from each kind of state.
* `Pulse.phase_succ`: one call leads from phase to phase (`Pulse.Phase` is the invariant of the run).
* `Pulse.law_of_steady`: in a run with one preset, starts, output and elapsed time are those that the
  history demands.
-/

namespace Plc

namespace TimerState

variable {s : TimerState} {input : Bool} {now : Duration}

/-! ## §1 One step -/

/-- No time has passed at the start itself. -/
theorem sinceStart_self (start : s.start = now) (preset : 0 ≤ s.preset.nanos) :
    s.sinceStart now = .zero := by
  apply Duration.ext
  unfold sinceStart
  rw [Duration.nanos_least, Duration.nanos_sub, start, Duration.nanos_zero]
  omega

/-- Time passes with the clock up to the preset, as long as the clock has not gone back. -/
theorem nanos_sinceStart (span : now.nanos - s.start.nanos < 2 ^ 63)
    (ordered : s.start.nanos ≤ now.nanos) :
    (s.sinceStart now).nanos = min (now.nanos - s.start.nanos) s.preset.nanos := by
  unfold sinceStart
  rw [Duration.nanos_least, Duration.nanos_sub]
  omega

/-- However far the clock has moved, the time that has passed lies between zero and the preset. -/
theorem sinceStart_bounds (ordered : s.start.nanos ≤ now.nanos) (preset : 0 ≤ s.preset.nanos) :
    0 ≤ (s.sinceStart now).nanos ∧ (s.sinceStart now).nanos ≤ s.preset.nanos := by
  unfold sinceStart
  rw [Duration.nanos_least, Duration.nanos_sub]
  omega

/-- A timer at rest starts a pulse if its input is true. -/
theorem pulse_of_rest (rest : s.running = false) (cleared : s.elapsed = .zero)
    (preset : 0 ≤ s.preset.nanos) :
    s.pulse input now =
      if input then
        { s with output := false, running := decide (0 < s.preset.nanos), start := now }
      else { s with output := false } := by
  obtain ⟨output, length, elapsed, running, start⟩ := s
  obtain rfl : running = false := rest
  obtain rfl : elapsed = .zero := cleared
  have since : (TimerState.mk output length .zero true now).sinceStart now = .zero :=
    sinceStart_self rfl preset
  cases input <;> simp [pulse, pulseStart, pulseAdvance, pulseFinish, since]

/-- A pulse goes on, or it is over, and then a false input clears the elapsed time. -/
theorem pulse_of_running (running : s.running = true) {passed : Duration}
    (since : s.sinceStart now = passed) :
    s.pulse input now =
      if passed.nanos < s.preset.nanos then
        { s with elapsed := passed, output := decide (0 < passed.nanos) }
      else if input = false ∧ passed.nanos ≠ 0 then
        { s with elapsed := .zero, start := .zero, running := false, output := false }
      else { s with elapsed := passed, running := false, output := false } := by
  have started : s.pulseStart input now = s := by simp [pulseStart, running]
  simp only [pulse, started, pulseAdvance, pulseFinish, running, since]
  by_cases going : passed.nanos < s.preset.nanos
  · simp [going]
  · simp [going]

/-- A timer that holds an elapsed time does so until its input is false. -/
theorem pulse_of_held (rest : s.running = false) (held : s.elapsed.nanos ≠ 0) :
    s.pulse input now =
      if input then { s with output := false }
      else { s with elapsed := .zero, start := .zero, output := false } := by
  have started : s.pulseStart input now = s := by simp [pulseStart, held]
  have advanced : s.pulseAdvance now = s := by simp [pulseAdvance, rest]
  cases input <;> simp [pulse, started, advanced, pulseFinish, rest, held]

end TimerState

/-! ## §2 The history of a run -/

namespace Pulse

/-- The state of the timer before the call of number `i`. -/
def state (calls : Nat → TimerCall) (i : Nat) : TimerState :=
  (timerBefore Block.tp calls i).timer?.getD {}

/-- The call of number `i` starts a pulse: the timer runs after it, but not before. -/
def Starts (calls : Nat → TimerCall) (i : Nat) : Prop :=
  (state calls i).running = false ∧ (state calls (i + 1)).running = true

/-- The last start before the call of number `i`. -/
structure LastStart (calls : Nat → TimerCall) (s i : Nat) : Prop where
  lt : s < i
  starts : Starts calls s
  latest : ∀ j, s < j → j < i → ¬Starts calls j

/-- After the start and before the call of number `i`, a call has seen a false input once the pulse
was over. -/
def Released (calls : Nat → TimerCall) (pt : Duration) (s i : Nat) : Prop :=
  ∃ k, s < k ∧ k < i ∧ (calls k).on = false ∧
    (calls s).now.nanos + pt.nanos ≤ (calls k).now.nanos

/-- Before the call of number `i`, no pulse has been started, or the last one has been released. -/
def Free (calls : Nat → TimerCall) (pt : Duration) (i : Nat) : Prop :=
  (∀ j < i, ¬Starts calls j) ∨ ∃ s, LastStart calls s i ∧ Released calls pt s i

variable {calls : Nat → TimerCall} {pt : Duration} {s i n : Nat}

theorem lastStart_self (starts : Starts calls i) : LastStart calls i (i + 1) :=
  ⟨Nat.lt_succ_self i, starts, fun j after before => by omega⟩

theorem LastStart.extend (last : LastStart calls s i) (not_starts : ¬Starts calls i) :
    LastStart calls s (i + 1) := by
  refine ⟨Nat.lt_succ_of_lt last.lt, last.starts, fun j after before => ?_⟩
  rcases Nat.lt_succ_iff_lt_or_eq.mp before with earlier | rfl
  · exact last.latest j after earlier
  · exact not_starts

theorem LastStart.unique {s' : Nat} (last : LastStart calls s i) (last' : LastStart calls s' i) :
    s = s' := by
  rcases Nat.lt_trichotomy s s' with lt | eq | lt
  · exact absurd last'.starts (last.latest s' lt last'.lt)
  · exact eq
  · exact absurd last.starts (last'.latest s lt last.lt)

theorem Released.extend (released : Released calls pt s i) : Released calls pt s (i + 1) := by
  obtain ⟨k, after, before, off, spent⟩ := released
  exact ⟨k, after, Nat.lt_succ_of_lt before, off, spent⟩

/-- A call with a true input releases nothing. -/
theorem not_released_of_on (unreleased : ¬Released calls pt s i) (on : (calls i).on = true) :
    ¬Released calls pt s (i + 1) := by
  rintro ⟨k, after, before, off, spent⟩
  rcases Nat.lt_succ_iff_lt_or_eq.mp before with earlier | rfl
  · exact unreleased ⟨k, after, earlier, off, spent⟩
  · rw [on] at off
    cases off

theorem Free.extend (free : Free calls pt i) (not_starts : ¬Starts calls i) :
    Free calls pt (i + 1) := by
  rcases free with none | ⟨s, last, released⟩
  · refine Or.inl fun j before => ?_
    rcases Nat.lt_succ_iff_lt_or_eq.mp before with earlier | rfl
    · exact none j earlier
    · exact not_starts
  · exact Or.inr ⟨s, last.extend not_starts, released.extend⟩

/-- As long as the last pulse is not released, none is free to start. -/
theorem LastStart.not_free (last : LastStart calls s i) (unreleased : ¬Released calls pt s i) :
    ¬Free calls pt i := by
  rintro (none | ⟨s', last', released⟩)
  · exact none s last.lt last.starts
  · obtain rfl := last.unique last'
    exact unreleased released

/-! ## §3 Phases -/

/-- The first `n` calls are valid, ask for pulses of one positive length, and read a clock that never
goes back and that moves no farther than a duration can tell. -/
structure Steady (calls : Nat → TimerCall) (pt : Duration) (n : Nat) : Prop where
  valid : ∀ i < n, (calls i).Valid
  preset : ∀ i < n, (calls i).pt = pt
  positive : 0 < pt.nanos
  ordered : ∀ i j, i ≤ j → j < n → (calls i).now.nanos ≤ (calls j).now.nanos
  span : ∀ i j, i ≤ j → j < n → (calls j).now.nanos - (calls i).now.nanos < 2 ^ 63

/-- The reading of the last call before the one of number `i`. -/
def lastReading (calls : Nat → TimerCall) : Nat → Int
  | 0 => 0
  | i + 1 => (calls i).now.nanos

/-- Where the timer is before the call of number `i`, seen from the starts so far. -/
inductive Phase (calls : Nat → TimerCall) (pt : Duration) (i : Nat) : Prop where
  /-- Ready for a pulse. -/
  | rest (stopped : (state calls i).running = false) (silent : (state calls i).output = false)
      (cleared : (state calls i).elapsed = .zero) (free : Free calls pt i)
  /-- In the pulse that the call of number `s` started. -/
  | pulsing (s : Nat) (last : LastStart calls s i) (running : (state calls i).running = true)
      (start : (state calls i).start = (calls s).now)
      (young : lastReading calls i < (calls s).now.nanos + pt.nanos)
      (passed : (state calls i).elapsed.nanos = lastReading calls i - (calls s).now.nanos)
      (output : (state calls i).output = true ↔ (calls s).now.nanos < lastReading calls i)
  /-- The pulse is over, and no false input has been seen since. -/
  | held (s : Nat) (last : LastStart calls s i) (stopped : (state calls i).running = false)
      (silent : (state calls i).output = false)
      (spent : (calls s).now.nanos + pt.nanos ≤ lastReading calls i)
      (full : (state calls i).elapsed = pt) (unreleased : ¬Released calls pt s i)

/-- Each call makes one step from the state that the timer holds. -/
theorem state_succ (valid : ∀ j < n, (calls j).Valid) (lt : i < n) :
    state calls (i + 1) =
      ((state calls i).withPreset (calls i).pt).pulse (calls i).on (calls i).now :=
  timerState_succ TimerState.pulse valid lt

theorem not_starts_of_running (running : (state calls i).running = true) : ¬Starts calls i := by
  rintro ⟨stopped, _⟩
  rw [running] at stopped
  cases stopped

theorem not_starts_of_stopped (stopped : (state calls (i + 1)).running = false) :
    ¬Starts calls i := by
  rintro ⟨_, running⟩
  rw [stopped] at running
  cases running

section Steady

variable (steady : Steady calls pt n)
include steady

/-- Each call makes one step, with the preset of the run. -/
theorem steady_succ (lt : i < n) :
    state calls (i + 1) =
      ((state calls i).withPreset pt).pulse (calls i).on (calls i).now := by
  rw [state_succ steady.valid lt, steady.preset i lt]

theorem le_lastReading {k : Nat} (before : k < i) (le : i ≤ n) :
    (calls k).now.nanos ≤ lastReading calls i := by
  cases i with
  | zero => omega
  | succ i => exact steady.ordered k i (Nat.le_of_lt_succ before) le

theorem lastReading_le {k : Nat} (before : s < i) (le : i ≤ k) (lt : k < n) :
    lastReading calls i ≤ (calls k).now.nanos := by
  cases i with
  | zero => omega
  | succ i => exact steady.ordered i k (Nat.le_of_succ_le le) lt

/-- Nothing is released while the pulse lasts. -/
theorem not_released_of_young (le : i ≤ n)
    (young : lastReading calls i < (calls s).now.nanos + pt.nanos) : ¬Released calls pt s i := by
  rintro ⟨k, _, before, _, spent⟩
  have reading := le_lastReading steady before le
  omega

/-- From rest, a true input starts a pulse and a false one changes nothing. -/
theorem phase_of_rest (lt : i < n) (stopped : (state calls i).running = false)
    (cleared : (state calls i).elapsed = .zero) (free : Free calls pt i) :
    Phase calls pt (i + 1) ∧ (Starts calls i ↔ (calls i).on = true) := by
  have step := steady_succ steady lt
  rw [TimerState.pulse_of_rest (s := (state calls i).withPreset pt) stopped cleared
    (Int.le_of_lt steady.positive)] at step
  cases on : (calls i).on with
  | true =>
    -- A new pulse: it starts with this call, and no time has passed in it.
    rw [if_pos on] at step
    have running : (state calls (i + 1)).running = true := by
      rw [step]
      exact decide_eq_true steady.positive
    have starts : Starts calls i := ⟨stopped, running⟩
    refine ⟨.pulsing i (lastStart_self starts) running ?_ ?_ ?_ ?_, by simp [starts]⟩
    · rw [step]
    · exact Int.lt_add_of_pos_right _ steady.positive
    · rw [step]
      show (state calls i).elapsed.nanos = (calls i).now.nanos - (calls i).now.nanos
      rw [cleared, Int.sub_self, Duration.nanos_zero]
    · rw [step]
      simp [lastReading]
  | false =>
    -- Still at rest, and what made the timer free before still does.
    rw [if_neg (by simp [on])] at step
    have not_starts : ¬Starts calls i := not_starts_of_stopped (by rw [step]; exact stopped)
    refine ⟨.rest ?_ ?_ ?_ (free.extend not_starts), by simp [not_starts]⟩
    · rw [step]
      exact stopped
    · rw [step]
    · rw [step]
      exact cleared

/-- A pulse goes on while it is young; once it is over the timer comes to rest on a false input and
else holds the elapsed time. -/
theorem phase_of_pulsing (lt : i < n) (last : LastStart calls s i)
    (running : (state calls i).running = true) (start : (state calls i).start = (calls s).now)
    (young : lastReading calls i < (calls s).now.nanos + pt.nanos) : Phase calls pt (i + 1) := by
  have positive := steady.positive
  have span := steady.span s i (Nat.le_of_lt last.lt) lt
  have ordered := steady.ordered s i (Nat.le_of_lt last.lt) lt
  have last' := last.extend (not_starts_of_running running)
  -- The time that this call finds to have passed, cut off at the length of the pulse.
  generalize since : ((state calls i).withPreset pt).sinceStart (calls i).now = passed
  have nanos : passed.nanos = min ((calls i).now.nanos - (calls s).now.nanos) pt.nanos := by
    have from_start : ((state calls i).withPreset pt).start = (calls s).now := start
    rw [← from_start] at span ordered ⊢
    rw [← since]
    exact TimerState.nanos_sinceStart span ordered
  have step := (steady_succ steady lt).trans
    (TimerState.pulse_of_running (s := (state calls i).withPreset pt) running since)
  by_cases going : passed.nanos < pt.nanos
  · -- The pulse goes on.
    have step := step.trans (if_pos going)
    have elapsed : passed.nanos = (calls i).now.nanos - (calls s).now.nanos := by omega
    refine .pulsing s last' (by rw [step]; exact running) (by rw [step]; exact start) ?_ ?_ ?_
    · show (calls i).now.nanos < _
      omega
    · rw [step]
      exact elapsed
    · rw [step]
      show decide (0 < passed.nanos) = true ↔ (calls s).now.nanos < (calls i).now.nanos
      rw [decide_eq_true_iff]
      omega
  · -- The pulse is over, and its whole length has passed.
    have spent : (calls s).now.nanos + pt.nanos ≤ (calls i).now.nanos := by omega
    have full : passed = pt := Duration.ext (by omega)
    have step := step.trans (if_neg going)
    cases on : (calls i).on with
    | true =>
      -- No call so far has released the pulse, and this one does not either.
      have step := step.trans (if_neg (by simp [on]))
      have unreleased := not_released_of_young steady (Nat.le_of_lt lt) young
      refine .held s last' (by rw [step]) (by rw [step]) spent (by rw [step]; exact full) ?_
      exact not_released_of_on unreleased on
    | false =>
      -- This call itself releases the pulse.
      have step := step.trans (if_pos ⟨on, by omega⟩)
      have released : Released calls pt s (i + 1) := ⟨i, last.lt, Nat.lt_succ_self i, on, spent⟩
      exact .rest (by rw [step]) (by rw [step]) (by rw [step]) (Or.inr ⟨s, last', released⟩)

/-- The elapsed time is held until the input is false. -/
theorem phase_of_held (lt : i < n) (last : LastStart calls s i)
    (stopped : (state calls i).running = false)
    (spent : (calls s).now.nanos + pt.nanos ≤ lastReading calls i)
    (full : (state calls i).elapsed = pt) (unreleased : ¬Released calls pt s i) :
    Phase calls pt (i + 1) ∧ ¬Starts calls i := by
  have step := steady_succ steady lt
  have positive := steady.positive
  have held : (state calls i).elapsed.nanos ≠ 0 := by
    rw [full]
    omega
  rw [TimerState.pulse_of_held (s := (state calls i).withPreset pt) stopped held] at step
  have reading := lastReading_le steady last.lt (Nat.le_refl i) lt
  have still : (state calls (i + 1)).running = false := by
    rw [step]
    split <;> exact stopped
  have not_starts := not_starts_of_stopped still
  have spent : (calls s).now.nanos + pt.nanos ≤ (calls i).now.nanos := Int.le_trans spent reading
  refine ⟨?_, not_starts⟩
  cases on : (calls i).on with
  | true =>
    rw [if_pos on] at step
    refine .held s (last.extend not_starts) still (by rw [step]) spent (by rw [step]; exact full) ?_
    exact not_released_of_on unreleased on
  | false =>
    rw [if_neg (by simp [on])] at step
    have released : Released calls pt s (i + 1) := ⟨i, last.lt, Nat.lt_succ_self i, on, spent⟩
    exact .rest still (by rw [step]) (by rw [step]) (Or.inr ⟨s, last.extend not_starts, released⟩)

/-- One call leads from phase to phase, and starts a pulse exactly if its input is true and the timer
is free. -/
theorem phase_succ (lt : i < n) (phase : Phase calls pt i) :
    Phase calls pt (i + 1) ∧ (Starts calls i ↔ (calls i).on = true ∧ Free calls pt i) := by
  cases phase with
  | rest stopped silent cleared free =>
    obtain ⟨phase, starts⟩ := phase_of_rest steady lt stopped cleared free
    exact ⟨phase, by simp [starts, free]⟩
  | pulsing s last running start young passed output =>
    have not_free := last.not_free (not_released_of_young steady (Nat.le_of_lt lt) young)
    have not_starts := not_starts_of_running running
    exact ⟨phase_of_pulsing steady lt last running start young, by simp [not_starts, not_free]⟩
  | held s last stopped silent spent full unreleased =>
    obtain ⟨phase, not_starts⟩ := phase_of_held steady lt last stopped spent full unreleased
    exact ⟨phase, by simp [not_starts, last.not_free unreleased]⟩

/-- The timer is in one of the phases throughout the run. -/
theorem phase (le : i ≤ n) : Phase calls pt i := by
  induction i with
  | zero => exact .rest rfl rfl rfl (Or.inl fun j before => absurd before (Nat.not_lt_zero j))
  | succ i ih => exact (phase_succ steady le (ih (Nat.le_of_succ_le le))).1

/-! ## §4 The law of the pulse timer -/

/-- The output is true strictly inside the pulse that was started last. -/
theorem output_iff (lt : i < n) (phase : Phase calls pt (i + 1)) :
    (state calls (i + 1)).output = true ↔
      ∃ s, LastStart calls s (i + 1) ∧ (calls s).now.nanos < (calls i).now.nanos ∧
        (calls i).now.nanos < (calls s).now.nanos + pt.nanos := by
  cases phase with
  | rest stopped silent cleared free =>
    -- A pulse that were still young could not have been released.
    rw [silent]
    refine ⟨fun impossible => (by cases impossible), ?_⟩
    rintro ⟨s, last, _, young⟩
    exact absurd free (last.not_free (not_released_of_young steady lt young))
  | pulsing s last running start young passed output =>
    rw [output]
    refine ⟨fun later => ⟨s, last, later, young⟩, ?_⟩
    rintro ⟨s', last', later, _⟩
    obtain rfl := last.unique last'
    exact later
  | held s last stopped silent spent full unreleased =>
    -- The last start is the one that is held, and its pulse is over.
    rw [silent]
    refine ⟨fun impossible => (by cases impossible), ?_⟩
    rintro ⟨s', last', _, young⟩
    obtain rfl := last.unique last'
    exact absurd young (Int.not_lt.mpr spent)

omit steady in
/-- The elapsed time grows with the clock up to the length of the pulse, until it is released. -/
theorem elapsed_passing (phase : Phase calls pt (i + 1)) (last : LastStart calls s (i + 1))
    (unreleased : ¬Released calls pt s (i + 1)) :
    (state calls (i + 1)).elapsed.nanos =
      min ((calls i).now.nanos - (calls s).now.nanos) pt.nanos := by
  cases phase with
  | rest stopped silent cleared free => exact absurd free (last.not_free unreleased)
  | pulsing s' last' running start young passed output =>
    obtain rfl := last.unique last'
    rw [passed]
    simp only [lastReading] at young ⊢
    omega
  | held s' last' stopped silent spent full _ =>
    obtain rfl := last.unique last'
    rw [full]
    simp only [lastReading] at spent
    omega

/-- A timer that is free for the next pulse has no elapsed time, unless the last call started one. -/
theorem elapsed_free (lt : i < n) (phase : Phase calls pt (i + 1)) (free : Free calls pt (i + 1)) :
    (state calls (i + 1)).elapsed.nanos = 0 := by
  cases phase with
  | rest stopped silent cleared _ => rw [cleared, Duration.nanos_zero]
  | pulsing s last running start young passed output =>
    exact absurd free (last.not_free (not_released_of_young steady lt young))
  | held s last stopped silent spent full unreleased =>
    exact absurd free (last.not_free unreleased)

theorem elapsed_bounds (lt : i < n) (phase : Phase calls pt (i + 1)) :
    0 ≤ (state calls (i + 1)).elapsed.nanos ∧ (state calls (i + 1)).elapsed.nanos ≤ pt.nanos := by
  have positive := steady.positive
  cases phase with
  | rest stopped silent cleared free =>
    rw [cleared, Duration.nanos_zero]
    omega
  | pulsing s last running start young passed output =>
    have reading := steady.ordered s i (Nat.le_of_lt_succ last.lt) lt
    rw [passed]
    simp only [lastReading] at young ⊢
    omega
  | held s last stopped silent spent full unreleased =>
    rw [full]
    omega

/-- A call that may start a pulse comes no earlier than any pulse before it is over. -/
theorem apart_of_free (lt : i < n) (free : Free calls pt i) (before : s < i)
    (starts : Starts calls s) : (calls s).now.nanos + pt.nanos ≤ (calls i).now.nanos := by
  rcases free with none | ⟨last, latest, k, _, k_before, _, spent⟩
  · exact absurd starts (none s before)
  · -- The start at `s` is the last one or comes before it.
    have not_after : s ≤ last :=
      Nat.le_of_not_lt fun after => latest.latest s after before starts
    have start_ordered := steady.ordered s last not_after (Nat.lt_trans latest.lt lt)
    have reading := steady.ordered k i (Nat.le_of_lt k_before) lt
    omega

end Steady

/-- What the call of number `i` does, told by the history of the run. -/
structure Law (calls : Nat → TimerCall) (pt : Duration) (i : Nat) : Prop where
  succeeds : (calls i).status Block.tp (timerBefore Block.tp calls i) = .ok ()
  /-- A true input starts a pulse if there was none, or the last one was released. -/
  starts : Starts calls i ↔ (calls i).on = true ∧
    ((∀ j < i, ¬Starts calls j) ∨ ∃ s, LastStart calls s i ∧ Released calls pt s i)
  output : (state calls (i + 1)).output = true ↔
    ∃ s, LastStart calls s (i + 1) ∧ (calls s).now.nanos < (calls i).now.nanos ∧
      (calls i).now.nanos < (calls s).now.nanos + pt.nanos
  unstarted : (∀ j ≤ i, ¬Starts calls j) → (state calls (i + 1)).elapsed.nanos = 0
  passing : ∀ s, LastStart calls s (i + 1) → ¬Released calls pt s (i + 1) →
    (state calls (i + 1)).elapsed.nanos = min ((calls i).now.nanos - (calls s).now.nanos) pt.nanos
  released : ∀ s, LastStart calls s (i + 1) → Released calls pt s (i + 1) →
    (state calls (i + 1)).elapsed.nanos = 0
  /-- The container for the elapsed time, if it is wanted, holds that of the timer. -/
  handed : ((calls i).outputs Block.tp (timerBefore Block.tp calls i)).elapsed.map Value.duration? =
    (calls i).elapsed.map fun _ => some (state calls (i + 1)).elapsed
  bounds : 0 ≤ (state calls (i + 1)).elapsed.nanos ∧
    (state calls (i + 1)).elapsed.nanos ≤ pt.nanos
  /-- A pulse is at least its length apart from every earlier one. -/
  apart : ∀ s < i, Starts calls s → Starts calls i →
    (calls s).now.nanos + pt.nanos ≤ (calls i).now.nanos

theorem handed_eq (steady : Steady calls pt n) (lt : i < n) :
    ((calls i).outputs Block.tp (timerBefore Block.tp calls i)).elapsed.map Value.duration? =
      (calls i).elapsed.map fun _ => some (state calls (i + 1)).elapsed :=
  handed_timerBefore steady.valid lt

/-- In a run with one preset, every call follows the law of the pulse timer. -/
theorem law_of_steady (steady : Steady calls pt n) (i : Nat) (lt : i < n) : Law calls pt i := by
  have before := phase steady (Nat.le_of_lt lt)
  obtain ⟨after, starts⟩ := phase_succ steady lt before
  have valid : ∀ j < i, (calls j).Valid := fun j earlier =>
    steady.valid j (Nat.lt_trans earlier lt)
  have tracks := tracks_timerBefore TimerState.pulse valid
  exact {
    succeeds := TimerCall.status_eq TimerState.pulse (steady.valid i lt) tracks
    starts := starts
    output := output_iff steady lt after
    unstarted := fun none =>
      elapsed_free steady lt after (Or.inl fun j earlier => none j (Nat.le_of_lt_succ earlier))
    passing := fun s last unreleased => elapsed_passing after last unreleased
    released := fun s last released =>
      elapsed_free steady lt after (Or.inr ⟨s, last, released⟩)
    handed := handed_eq steady lt
    bounds := elapsed_bounds steady lt after
    apart := fun s earlier starts_s starts_i =>
      apart_of_free steady lt (starts.mp starts_i).2 earlier starts_s }

/-- A call every 60 ms that asks for a pulse of 100 ms, with a true input in every third one. -/
def everyThird (i : Nat) : TimerCall where
  input := .ofNumber .bool (.ofBool (i % 3 = 0))
  preset := .ofDuration (.ofMillis 100)
  elapsed := some (.zero .time)
  now := .ofMillis (60 * i)

theorem nanos_everyThird (i : Nat) :
    (everyThird i).now.nanos = max (-2 ^ 63) (min (2 ^ 63 - 1) (60 * (i : Int) * 1000000)) := rfl

/-- The pulse of the first call is over and released at the third one, so the fourth starts another. -/
theorem law_of_steady_everyThird :
    Steady everyThird (.ofMillis 100) 4 ∧ Starts everyThird 0 ∧ Starts everyThird 3 ∧
      Law everyThird (.ofMillis 100) 3 := by
  have steady : Steady everyThird (.ofMillis 100) 4 := {
    valid := fun _ _ => ⟨rfl, rfl, fun v wanted => by cases wanted; rfl⟩
    preset := fun _ _ => rfl
    positive := by decide
    ordered := fun i j le _ => by
      rw [nanos_everyThird, nanos_everyThird]
      omega
    span := fun i j le lt => by
      rw [nanos_everyThird, nanos_everyThird]
      omega }
  exact ⟨steady, ⟨rfl, rfl⟩, ⟨by decide +kernel, by decide +kernel⟩,
    law_of_steady steady 3 (by decide)⟩

end Pulse

end Plc
