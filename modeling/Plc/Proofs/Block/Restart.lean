import Plc.Proofs.Block.Pulse

/-!
# Pulses under a held input

A pulse is meant to start on a rising edge only. The timer does not keep the previous sample of its
input, though: it takes an elapsed time of zero for a sign that the input has dropped. A pulse of
length zero is over with nothing elapsed, so that a longer preset starts another one under the same
true input.

Main statements:

* `starts_after_false_iff`: a start comes after a false input except in that situation.
* `starts_after_true`: the situation does arise.
-/

namespace Plc.Pulse

variable {calls : Nat → TimerCall} {i n : Nat}

/-- The first `n` calls are valid, ask for pulses of any length but a negative one, and read a clock
that never goes back. -/
structure Forward (calls : Nat → TimerCall) (n : Nat) : Prop where
  valid : ∀ i < n, (calls i).Valid
  preset : ∀ i < n, 0 ≤ (calls i).pt.nanos
  ordered : ∀ i j, i ≤ j → j < n → (calls i).now.nanos ≤ (calls j).now.nanos

/-- No negative time has passed, and a running pulse started at no later reading than those to come. -/
structure Sane (calls : Nat → TimerCall) (n i : Nat) : Prop where
  elapsed : 0 ≤ (state calls i).elapsed.nanos
  start : (state calls i).running = true →
    ∀ j, i ≤ j → j < n → (state calls i).start.nanos ≤ (calls j).now.nanos

section Forward

variable (forward : Forward calls n)
include forward

/-! ## §1 What a call makes of the state -/

/-- From rest. -/
theorem succ_of_rest (lt : i < n) (stopped : (state calls i).running = false)
    (cleared : (state calls i).elapsed = .zero) :
    (state calls (i + 1)).elapsed = .zero ∧
      ((state calls (i + 1)).running = true ↔ (calls i).on = true ∧ 0 < (calls i).pt.nanos) ∧
      ((state calls (i + 1)).running = true → (state calls (i + 1)).start = (calls i).now) := by
  have step := (state_succ forward.valid lt).trans
    (TimerState.pulse_of_rest (s := (state calls i).withPreset (calls i).pt) stopped cleared
      (forward.preset i lt))
  cases on : (calls i).on with
  | true =>
    have step := step.trans (if_pos on)
    rw [step]
    refine ⟨cleared, ⟨fun running => ⟨rfl, of_decide_eq_true running⟩, fun both => ?_⟩, fun _ => rfl⟩
    exact decide_eq_true both.2
  | false =>
    have step := step.trans (if_neg (by simp [on]))
    have still : (state calls (i + 1)).running = false := by rw [step]; exact stopped
    refine ⟨by rw [step]; exact cleared, by simp [still], fun running => ?_⟩
    rw [still] at running
    cases running

/-- From a pulse: either it goes on, or all of its time has passed. -/
theorem succ_of_running (lt : i < n) (sane : Sane calls n i)
    (running : (state calls i).running = true) :
    0 ≤ (state calls (i + 1)).elapsed.nanos ∧
      ((state calls (i + 1)).running = true →
        (state calls (i + 1)).start = (state calls i).start ∧ 0 < (calls i).pt.nanos) ∧
      ((calls i).on = true → (state calls (i + 1)).running = false →
        (state calls (i + 1)).elapsed.nanos = (calls i).pt.nanos) := by
  have preset := forward.preset i lt
  have start := sane.start running i (Nat.le_refl i) lt
  generalize since : ((state calls i).withPreset (calls i).pt).sinceStart (calls i).now = passed
  have least : 0 ≤ passed.nanos ∧ passed.nanos ≤ (calls i).pt.nanos := by
    rw [← since]
    exact TimerState.sinceStart_bounds start preset
  have step := (state_succ forward.valid lt).trans
    (TimerState.pulse_of_running (s := (state calls i).withPreset (calls i).pt) running since)
  by_cases going : passed.nanos < (calls i).pt.nanos
  · -- The pulse goes on.
    have step := step.trans (if_pos going)
    have still : (state calls (i + 1)).running = true := by rw [step]; exact running
    refine ⟨by rw [step]; exact least.1, fun _ => ⟨by rw [step]; rfl, by omega⟩, fun _ stopped => ?_⟩
    rw [still] at stopped
    cases stopped
  · have step := step.trans (if_neg going)
    by_cases cleared : (calls i).on = false ∧ passed.nanos ≠ 0
    · -- It is over and released at once; a true input would contradict that.
      have step := step.trans (if_pos cleared)
      rw [step]
      refine ⟨Int.le_refl 0, fun running => (by cases running), fun on _ => ?_⟩
      rw [on] at cleared
      cases cleared.1
    · have step := step.trans (if_neg cleared)
      rw [step]
      refine ⟨least.1, fun running => (by cases running), fun _ _ => ?_⟩
      show passed.nanos = _
      omega

/-- From a pulse that is over and was not released. -/
theorem succ_of_held (lt : i < n) (stopped : (state calls i).running = false)
    (held : (state calls i).elapsed.nanos ≠ 0) :
    (state calls (i + 1)).running = false ∧
      (state calls (i + 1)).elapsed =
        if (calls i).on then (state calls i).elapsed else .zero := by
  have step := (state_succ forward.valid lt).trans
    (TimerState.pulse_of_held (s := (state calls i).withPreset (calls i).pt) stopped held)
  rw [step]
  cases (calls i).on with
  | true => exact ⟨stopped, rfl⟩
  | false => exact ⟨stopped, rfl⟩

/-! ## §2 The run -/

theorem sane_succ (lt : i < n) (sane : Sane calls n i) : Sane calls n (i + 1) := by
  cases running : (state calls i).running with
  | true =>
    obtain ⟨elapsed, going, _⟩ := succ_of_running forward lt sane running
    refine ⟨elapsed, fun still j le before => ?_⟩
    rw [(going still).1]
    exact sane.start running j (Nat.le_of_succ_le le) before
  | false =>
    by_cases cleared : (state calls i).elapsed.nanos = 0
    · obtain ⟨elapsed, _, start⟩ := succ_of_rest forward lt running (Duration.ext cleared)
      refine ⟨by rw [elapsed]; exact Int.le_refl 0, fun started j le before => ?_⟩
      rw [start started]
      exact forward.ordered i j (Nat.le_of_succ_le le) before
    · obtain ⟨still, elapsed⟩ := succ_of_held forward lt running cleared
      refine ⟨?_, fun started => ?_⟩
      · rw [elapsed]
        split
        · exact sane.elapsed
        · exact Int.le_refl 0
      · rw [still] at started
        cases started

theorem sane (le : i ≤ n) : Sane calls n i := by
  induction i with
  | zero => exact ⟨Int.le_refl 0, fun running => (by cases running)⟩
  | succ i ih => exact sane_succ forward le (ih (Nat.le_of_succ_le le))

/-- A start is seen from the state and the arguments alone. -/
theorem starts_iff (lt : i < n) :
    Starts calls i ↔ (state calls i).running = false ∧ (state calls i).elapsed.nanos = 0 ∧
      (calls i).on = true ∧ 0 < (calls i).pt.nanos := by
  cases running : (state calls i).running with
  | true => simp [not_starts_of_running running]
  | false =>
    by_cases cleared : (state calls i).elapsed.nanos = 0
    · obtain ⟨_, started, _⟩ := succ_of_rest forward lt running (Duration.ext cleared)
      simp [Starts, running, cleared, started]
    · obtain ⟨still, _⟩ := succ_of_held forward lt running cleared
      simp [not_starts_of_stopped still, cleared]

/-- Under a true input a timer is at rest after a call exactly if the call asked for a pulse of no
length and the timer held no elapsed time. -/
theorem rest_after_true (lt : i < n) (on : (calls i).on = true) :
    ((state calls (i + 1)).running = false ∧ (state calls (i + 1)).elapsed.nanos = 0) ↔
      (calls i).pt.nanos = 0 ∧
        ((state calls i).running = true ∨ (state calls i).elapsed.nanos = 0) := by
  have preset := forward.preset i lt
  cases running : (state calls i).running with
  | true =>
    obtain ⟨_, going, all⟩ := succ_of_running forward lt (sane forward (Nat.le_of_lt lt)) running
    cases after : (state calls (i + 1)).running with
    | true =>
      -- A pulse that goes on is of positive length.
      have positive := (going after).2
      simp only [Bool.true_eq_false, false_and, false_iff]
      omega
    | false =>
      -- All of its length has passed, so none has passed exactly if there is none.
      simp [all on after]
  | false =>
    by_cases cleared : (state calls i).elapsed.nanos = 0
    · obtain ⟨elapsed, started, _⟩ := succ_of_rest forward lt running (Duration.ext cleared)
      have stopped : (state calls (i + 1)).running = false ↔ (calls i).pt.nanos = 0 := by
        rw [← Bool.not_eq_true, started]
        simp only [on, true_and]
        omega
      simp [stopped, elapsed, cleared]
    · obtain ⟨_, elapsed⟩ := succ_of_held forward lt running cleared
      simp [elapsed, on, cleared]

end Forward

/-- A start comes after a false input, except that a pulse of no length may have been over at once in
the call before, the input being true then as now. -/
theorem starts_after_false_iff (forward : Forward calls n) (i : Nat) (lt : i + 1 < n) :
    (Starts calls (i + 1) → (calls i).on = false) ↔
      ¬((calls i).on = true ∧ (calls (i + 1)).on = true ∧
        (calls i).pt.nanos = 0 ∧ 0 < (calls (i + 1)).pt.nanos ∧
        ((state calls i).running = true ∨ (state calls i).elapsed.nanos = 0)) := by
  have starts := starts_iff forward lt
  cases on : (calls i).on with
  | false => simp
  | true =>
    have rest := rest_after_true forward (Nat.lt_of_succ_lt lt) on
    rw [← and_assoc, rest] at starts
    rw [starts]
    simp only [Bool.true_eq_false, imp_false, true_and]
    refine not_congr ⟨?_, ?_⟩
    · rintro ⟨⟨none, ready⟩, next, positive⟩
      exact ⟨next, none, positive, ready⟩
    · rintro ⟨next, none, positive, ready⟩
      exact ⟨⟨none, ready⟩, next, positive⟩

/-- With pulses of 100 ms throughout, the start of the fourth call comes after a false input. -/
theorem starts_after_false_everyThird :
    Forward everyThird 4 ∧ Starts everyThird 3 ∧ (everyThird 2).on = false := by
  have forward : Forward everyThird 4 := {
    valid := fun _ _ => ⟨rfl, rfl, fun v wanted => by cases wanted; rfl⟩
    preset := fun _ _ => (by decide : 0 ≤ (Duration.ofMillis 100).nanos)
    ordered := fun i j le _ => by
      rw [nanos_everyThird, nanos_everyThird]
      omega }
  have starts : Starts everyThird 3 := ⟨by decide +kernel, by decide +kernel⟩
  have positive : ¬(everyThird 2).pt.nanos = 0 := by decide
  refine ⟨forward, starts, ?_⟩
  exact (starts_after_false_iff forward 2 (by decide)).mpr (fun zero => positive zero.2.2.1) starts

/-- An input that stays true, under a preset of zero at first and of 10 ms from then on. -/
def lengthened (i : Nat) : TimerCall where
  input := .ofNumber .bool (.ofBool true)
  preset := .ofDuration (if i = 0 then .zero else .ofMillis 10)
  elapsed := none
  now := .zero

/-- The second call starts a pulse although the input was true in the first one. -/
theorem starts_after_true :
    Forward lengthened 2 ∧ ¬(Starts lengthened 1 → (lengthened 0).on = false) := by
  have starts : Starts lengthened 1 := ⟨by decide +kernel, by decide +kernel⟩
  have on : (lengthened 0).on = true := rfl
  refine ⟨⟨fun i _ => ⟨rfl, rfl, fun v wanted => by cases wanted⟩, ?_, fun _ _ _ _ => Int.le_refl _⟩,
    fun after_false => ?_⟩
  · intro i lt
    rcases i with _ | i
    · decide
    · exact Int.le_of_lt (by decide : (0 : Int) < (Duration.ofMillis 10).nanos)
  · rw [after_false starts] at on
    cases on

end Plc.Pulse
