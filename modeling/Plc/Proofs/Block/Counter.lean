import Plc.Proofs.Block.Admission
import Plc.Proofs.Value.Integral

/-!
# Counters over whole runs

A counter is called again and again on one count, each time with arguments of the caller's choice. The count
is a word of 16 bits, but it does what the same steps do to an integer without bounds: it goes up only below
a preset, and down only above zero, and both are words of 16 bits themselves. So the count never wraps, and
what it is after a call can be told from the calls since the last one that reset or loaded it.

Main statements:

* `CounterCall.Exact`, `exact_ctu`, `exact_ctd`: one call against its step on integers.
* `countBefore_ofType`, `CounterLaw`: the same told of each call of a run.
* `CounterCall.Stretch.run`, `raise_run`, `lower_run`: what a stretch of calls without a reset or a load adds
  up to.
* `Block.counted_up`, `Block.counted_down`: the counts told from the edges since the last reset or load.
* `Block.counts_without_wrapping`: the laws of the two counters.
-/

namespace Plc

open Value

/-- The arguments of one call of a counter, and the container for its output. -/
structure CounterCall where
  edge : Value
  /-- The input that resets the one counter and loads the other. -/
  control : Value
  preset : Value
  output : Value

/-- What a counter does with its arguments. -/
abbrev CounterBlock := Value → Value → Value → Program CounterOutputs Unit

namespace CounterCall

/-- All arguments are of the types that counters demand. -/
structure Valid (call : CounterCall) : Prop where
  edge : call.edge.type = .rEdge
  control : call.control.type = .bool
  preset : call.preset.OfType .int
  output : call.output.WellFormed

/-- An edge is there to be counted. -/
def rises (call : CounterCall) : Bool := call.edge.isTrue

/-- The counter is to be reset or loaded, whether there is an edge or not. -/
def controls (call : CounterCall) : Bool := call.control.isTrue

/-- The call counts. -/
def counts (call : CounterCall) : Bool := call.rises && !call.controls

def pv (call : CounterCall) : Int := call.preset.toInt

/-- How the call of a counter ends that holds the count `cv`. -/
def status (call : CounterCall) (block : CounterBlock) (cv : Value) : Status :=
  (block call.edge call.control call.preset).status ⟨call.output, cv⟩

/-- What the call leaves in the containers. -/
def outputs (call : CounterCall) (block : CounterBlock) (cv : Value) : CounterOutputs :=
  (block call.edge call.control call.preset).final ⟨call.output, cv⟩

/-! ## §1 Steps on integers -/

/-- Counting up: a reset comes first, and an edge counts only below the preset. -/
def raise (call : CounterCall) (count : Int) : Int :=
  if call.controls then 0 else if call.rises && count < call.pv then count + 1 else count

/-- Counting down: a load comes first, and an edge counts only above zero. -/
def lower (call : CounterCall) (count : Int) : Int :=
  if call.controls then call.pv else if call.rises && 0 < count then count - 1 else count

/-- The preset is reached. -/
def atPreset (call : CounterCall) (count : Int) : Bool := call.pv ≤ count

/-- Zero is reached. -/
def atZero (_ : CounterCall) (count : Int) : Bool := count ≤ 0

/-- A valid call of the block succeeds, and its count is the INT that the step on integers gives. The output
is a BOOL that tells whether this count has reached its end. -/
def Exact (block : CounterBlock) (step : CounterCall → Int → Int) (reached : CounterCall → Int → Bool) :
    Prop :=
  ∀ (call : CounterCall) (cv : Value), call.Valid → cv.OfType .int →
    ∃ after : CounterOutputs,
      (block call.edge call.control call.preset).run ⟨call.output, cv⟩ = .ok () after ∧
        after.cv.OfType .int ∧ after.cv.toInt = step call cv.toInt ∧
        after.q.type = .bool ∧ after.q.isTrue = reached call after.cv.toInt

end CounterCall

/-! ## §2 Words of type INT -/

namespace Value.OfType

variable {v : Value} {n : Int}

theorem word_of_int (ofType : v.OfType .int) : v.Word := by
  refine ⟨ofType.wf, ?_⟩
  rw [ofType.type]
  rfl

theorem toInt_bounds (ofType : v.OfType .int) : -2 ^ 15 ≤ v.toInt ∧ v.toInt < 2 ^ 15 := by
  have range := DataType.wrap_int v.toInt
  rwa [← ofType.type, ofType.word_of_int.wrap_toInt] at range

/-- The reading that is held in the range of LINT is the exact one. -/
theorem toLint_eq (ofType : v.OfType .int) : v.toLint = v.toInt := by
  have range := ofType.toInt_bounds
  unfold toLint
  omega

/-- An integer of the range is stored as it is. -/
theorem setNumber (ofType : v.OfType .int) (least : -2 ^ 15 ≤ n) (most : n < 2 ^ 15) :
    (v.setNumber (.ofInt n)).OfType .int ∧ (v.setNumber (.ofInt n)).toInt = n := by
  have stored := ofType.word_of_int.holds_setNumber n
  rw [ofType.type] at stored
  exact ⟨⟨stored.wf, stored.type⟩, stored.toInt.trans (DataType.wrap_int_self least most)⟩

end Value.OfType

/-! ## §3 One call -/

namespace Block

open CounterCall

variable {edge control preset cv : Value}

/-- The next count is below the preset or equal to it, and so in the range of the preset. -/
theorem countUp_exact (ofType : preset.OfType .int) (ofType' : cv.OfType .int) :
    (countUp edge control preset cv).OfType .int ∧
      (countUp edge control preset cv).toInt =
        if control.isTrue then 0
        else if edge.isTrue && cv.toInt < preset.toInt then cv.toInt + 1 else cv.toInt := by
  have limit := ofType.toInt_bounds
  have range := ofType'.toInt_bounds
  unfold countUp
  rw [ofType.toLint_eq, ofType'.toLint_eq]
  split
  case isTrue => exact ofType'.setNumber (by decide) (by decide)
  case isFalse =>
    split
    case isTrue counts =>
      have below : cv.toInt < preset.toInt := of_decide_eq_true (Bool.and_eq_true_iff.mp counts).2
      exact ofType'.setNumber (by omega) (by omega)
    case isFalse => exact ⟨ofType', rfl⟩

/-- The next count is zero or above, and no greater than the count before; a load takes the preset over. -/
theorem countDown_exact (ofType : preset.OfType .int) (ofType' : cv.OfType .int) :
    (countDown edge control preset cv).OfType .int ∧
      (countDown edge control preset cv).toInt =
        if control.isTrue then preset.toInt
        else if edge.isTrue && 0 < cv.toInt then cv.toInt - 1 else cv.toInt := by
  have limit := ofType.toInt_bounds
  have range := ofType'.toInt_bounds
  unfold countDown
  rw [ofType'.toLint_eq]
  split
  case isTrue =>
    rw [ofType.word_of_int.number_eq]
    exact ofType'.setNumber limit.1 limit.2
  case isFalse =>
    split
    case isTrue counts =>
      have above : 0 < cv.toInt := of_decide_eq_true (Bool.and_eq_true_iff.mp counts).2
      exact ofType'.setNumber (by omega) (by omega)
    case isFalse => exact ⟨ofType', rfl⟩

theorem count_run {next : Value → Value} {reached : Value → Bool} {q : Value}
    (edge_type : edge.type = .rEdge) (control_type : control.type = .bool) (preset_type : preset.type = .int)
    (cv_type : cv.type = .int) :
    (count edge control preset next reached).run ⟨q, cv⟩ =
      .ok () ⟨(q.retype .bool).setBool (reached (next cv)), next cv⟩ := by
  have passed := (requireCounter_checks edge control preset cv).passes
    ⟨edge_type, control_type, preset_type, cv_type⟩
  unfold count
  rw [EStateM.run_bind, EStateM.run_get]
  exact Program.run_check_of_ok passed _ _

theorem exact_ctu : Exact ctu raise atPreset := by
  intro call cv valid ofType
  obtain ⟨ofType', next⟩ := countUp_exact valid.preset ofType
  refine ⟨_, count_run valid.edge valid.control valid.preset.type ofType.type, ofType', next,
    type_retype call.output .bool, ?_⟩
  rw [valid.output.flag_retype.isTrue_setBool, valid.preset.toLint_eq, ofType'.toLint_eq]
  rfl

theorem exact_ctd : Exact ctd lower atZero := by
  intro call cv valid ofType
  obtain ⟨ofType', next⟩ := countDown_exact valid.preset ofType
  refine ⟨_, count_run valid.edge valid.control valid.preset.type ofType.type, ofType', next,
    type_retype call.output .bool, ?_⟩
  rw [valid.output.flag_retype.isTrue_setBool, ofType'.toLint_eq]
  rfl

end Block

/-! ## §4 The calls of a run -/

/-- The count before the call of number `i`, in a run that begins with the count `cv`. -/
def countBefore (block : CounterBlock) (cv : Value) (calls : Nat → CounterCall) : Nat → Value
  | 0 => cv
  | i + 1 => ((calls i).outputs block (countBefore block cv calls i)).cv

/-- What the call of number `i` does: its count is an INT, and as an integer the one that the step gives. -/
structure CounterLaw (block : CounterBlock) (step : CounterCall → Int → Int)
    (reached : CounterCall → Int → Bool) (cv : Value) (calls : Nat → CounterCall) (i : Nat) : Prop where
  succeeds : (calls i).status block (countBefore block cv calls i) = .ok ()
  ofType : (countBefore block cv calls (i + 1)).OfType .int
  next : (countBefore block cv calls (i + 1)).toInt =
    step (calls i) (countBefore block cv calls i).toInt
  output : ((calls i).outputs block (countBefore block cv calls i)).q.type = .bool
  answer : ((calls i).outputs block (countBefore block cv calls i)).q.isTrue =
    reached (calls i) (countBefore block cv calls (i + 1)).toInt

section Runs

variable {block : CounterBlock} {step : CounterCall → Int → Int} {reached : CounterCall → Int → Bool}
variable {cv : Value} {calls : Nat → CounterCall} {i n : Nat}
variable (exact_block : CounterCall.Exact block step reached)
include exact_block

theorem counterLaw_of_ofType (valid : (calls i).Valid) (before : (countBefore block cv calls i).OfType .int) :
    CounterLaw block step reached cv calls i := by
  obtain ⟨after, run, ofType, next, output, answer⟩ := exact_block (calls i) _ valid before
  have outputs : (calls i).outputs block (countBefore block cv calls i) = after := Program.final_of_ok run
  have count : countBefore block cv calls (i + 1) = after.cv := congrArg CounterOutputs.cv outputs
  refine ⟨Program.status_of_ok run, ?_, ?_, ?_, ?_⟩
  · rwa [count]
  · rwa [count]
  · rwa [outputs]
  · rwa [outputs, count]

variable (start : cv.OfType .int) (valid : ∀ j < n, (calls j).Valid)
include start valid

/-- The count stays an INT, by induction on the number of calls. -/
theorem countBefore_ofType (le : i ≤ n) : (countBefore block cv calls i).OfType .int := by
  induction i with
  | zero => exact start
  | succ i ih => exact (counterLaw_of_ofType exact_block (valid i le) (ih (Nat.le_of_succ_le le))).ofType

theorem counterLaw (lt : i < n) : CounterLaw block step reached cv calls i :=
  counterLaw_of_ofType exact_block (valid i lt)
    (countBefore_ofType exact_block start valid (Nat.le_of_lt lt))

end Runs

/-! ## §5 Stretches without a reset or a load -/

namespace CounterCall

variable {calls : Nat → CounterCall} {c : Nat → Int} {first i k : Nat} {p : Int}

/-- How many of the calls count, out of `k` from number `first` on. -/
def counted (calls : Nat → CounterCall) (first k : Nat) : Nat :=
  (List.range' first k).countP fun j => (calls j).counts

theorem counted_succ (calls : Nat → CounterCall) (first k : Nat) :
    counted calls first (k + 1) = counted calls first k + if (calls (first + k)).counts then 1 else 0 := by
  unfold counted
  rw [List.range'_1_concat, List.countP_append, List.countP_singleton]

theorem counts_of_free {call : CounterCall} (free : call.controls = false) : call.counts = call.rises := by
  unfold counts
  rw [free, Bool.not_false, Bool.and_true]

/-- In a stretch of `k` calls from number `first` on, none resets or loads the counter, and each makes a step
from one of the integers to the next. -/
structure Stretch (step : CounterCall → Int → Int) (calls : Nat → CounterCall) (c : Nat → Int)
    (first k : Nat) : Prop where
  free : ∀ j, first ≤ j → j < first + k → (calls j).controls = false
  next : ∀ j, first ≤ j → j < first + k → c (j + 1) = step (calls j) (c j)

theorem Stretch.shorten {step : CounterCall → Int → Int} (stretch : Stretch step calls c first (k + 1)) :
    Stretch step calls c first k where
  free j ge lt := stretch.free j ge (Nat.lt_succ_of_lt lt)
  next j ge lt := stretch.next j ge (Nat.lt_succ_of_lt lt)

/-- If each call that counts takes the integer from one entry of a table to the next, the stretch takes it to
the entry of the number of calls that count. The induction is on the length of the stretch. -/
theorem Stretch.run {step : CounterCall → Int → Int} (stretch : Stretch step calls c first k)
    (value : Nat → Int) (start : c first = value 0)
    (moves : ∀ j, first ≤ j → j < first + k → ∀ m,
      step (calls j) (value m) = value (m + if (calls j).counts then 1 else 0)) :
    c (first + k) = value (counted calls first k) := by
  induction k with
  | zero => exact start
  | succ k ih =>
    have before := ih stretch.shorten fun j ge lt => moves j ge (Nat.lt_succ_of_lt lt)
    have last : first + k < first + (k + 1) := Nat.lt_succ_self _
    have next := stretch.next (first + k) (Nat.le_add_right first k) last
    rw [← Nat.add_assoc, next, before, counted_succ]
    exact moves (first + k) (Nat.le_add_right first k) last _

/-- From zero, edges are counted up to the preset. -/
theorem raise_run (stretch : Stretch raise calls c first k) (start : c first = 0) (nonneg : 0 ≤ p)
    (preset : ∀ j, first ≤ j → j < first + k → (calls j).pv = p) :
    c (first + k) = min p (counted calls first k) := by
  refine stretch.run (fun m => min p m) (start.trans (Int.min_eq_right nonneg).symm) fun j ge lt m => ?_
  have free := stretch.free j ge lt
  unfold raise
  rw [free, preset j ge lt, counts_of_free free]
  cases (calls j).rises with
  | false => rfl
  | true =>
    simp only [Bool.true_and, decide_eq_true_eq, Bool.false_eq_true, if_false, if_true]
    split <;> omega

/-- From a preset, edges are counted down to zero, whatever the presets of the later calls are. -/
theorem lower_run (stretch : Stretch lower calls c first k) (start : c first = p) (nonneg : 0 ≤ p) :
    c (first + k) = max 0 (p - counted calls first k) := by
  refine stretch.run (fun m => max 0 (p - m)) (by omega) fun j ge lt m => ?_
  have free := stretch.free j ge lt
  unfold lower
  rw [free, counts_of_free free]
  cases (calls j).rises with
  | false => rfl
  | true =>
    simp only [Bool.true_and, decide_eq_true_eq, Bool.false_eq_true, if_false, if_true]
    split <;> omega

/-- The calls from number `first` to number `i` neither reset nor load the counter, and the call before them,
if there is one, does. If call number `i` does it itself, there are no such calls. -/
structure SinceControl (calls : Nat → CounterCall) (first i : Nat) : Prop where
  le : first ≤ i + 1
  free : ∀ j, first ≤ j → j ≤ i → (calls j).controls = false
  control : ∀ j, j + 1 = first → (calls j).controls = true

theorem SinceControl.self (control : (calls i).controls = true) : SinceControl calls (i + 1) i where
  le := Nat.le_refl _
  free j ge le := by omega
  control j eq := by
    obtain rfl := Nat.succ.inj eq
    exact control

theorem exists_sinceControl (calls : Nat → CounterCall) (i : Nat) : ∃ first, SinceControl calls first i := by
  induction i with
  | zero =>
    cases control : (calls 0).controls with
    | true => exact ⟨1, .self control⟩
    | false =>
      refine ⟨0, Nat.zero_le _, fun j _ le => ?_, fun j eq => by cases eq⟩
      rwa [Nat.le_zero.mp le]
  | succ i ih =>
    cases control : (calls (i + 1)).controls with
    | true => exact ⟨i + 2, .self control⟩
    | false =>
      obtain ⟨first, since⟩ := ih
      refine ⟨first, Nat.le_succ_of_le since.le, fun j ge le => ?_, since.control⟩
      rcases Nat.le_succ_iff.mp le with before | rfl
      · exact since.free j ge before
      · exact control

/-- The calls since the last reset or load make a stretch. -/
theorem SinceControl.stretch {step : CounterCall → Int → Int} (since : SinceControl calls first i)
    (next : ∀ j ≤ i, c (j + 1) = step (calls j) (c j)) : Stretch step calls c first (i + 1 - first) where
  free j ge lt := since.free j ge (by omega)
  next j _ lt := next j (by omega)

/-- Each call leaves the count, raises it by one or sets it to zero. -/
theorem raise_cases (call : CounterCall) (count : Int) :
    call.raise count = count ∨ call.raise count = count + 1 ∨
      call.controls = true ∧ call.raise count = 0 := by
  unfold raise
  split
  case isTrue control => exact Or.inr (Or.inr ⟨control, rfl⟩)
  case isFalse =>
    split
    · exact Or.inr (Or.inl rfl)
    · exact Or.inl rfl

end CounterCall

/-! ## §6 The laws of the counters -/

namespace Block

open CounterCall

variable {cv : Value} {calls : Nat → CounterCall} {n : Nat}

section Laws

variable (start : cv.OfType .int) (valid : ∀ i < n, (calls i).Valid)
include start valid

/-- From zero and under one preset, CTU counts the edges since the last reset, or since the run began. -/
theorem counted_up {p : Int} {first i : Nat} (zero : cv.toInt = 0) (nonneg : 0 ≤ p)
    (preset : ∀ i < n, (calls i).pv = p) (since : SinceControl calls first i) (lt : i < n) :
    (countBefore ctu cv calls (i + 1)).toInt = min p (counted calls first (i + 1 - first)) := by
  have next : ∀ j ≤ i, (countBefore ctu cv calls (j + 1)).toInt =
      (calls j).raise (countBefore ctu cv calls j).toInt :=
    fun j le => (counterLaw exact_ctu start valid (Nat.lt_of_le_of_lt le lt)).next
  -- The stretch begins with the run, or right after a reset.
  have cleared : (countBefore ctu cv calls first).toInt = 0 := by
    cases first with
    | zero => exact zero
    | succ j =>
      rw [next j (Nat.le_of_succ_le_succ since.le)]
      exact if_pos (since.control j rfl)
  have stretch : Stretch raise calls (fun j => (countBefore ctu cv calls j).toInt) first _ :=
    since.stretch next
  have counted := raise_run stretch cleared nonneg
    fun j _ before => preset j (by have := since.le; omega)
  have whole : first + (i + 1 - first) = i + 1 := Nat.add_sub_cancel' since.le
  rwa [whole] at counted

/-- CTD counts the edges since the last load, down from what was loaded. -/
theorem counted_down {l i : Nat} (load : (calls l).controls = true) (nonneg : 0 ≤ (calls l).pv)
    (since : SinceControl calls (l + 1) i) (lt : i < n) :
    (countBefore ctd cv calls (i + 1)).toInt = max 0 ((calls l).pv - counted calls (l + 1) (i - l)) := by
  have next : ∀ j ≤ i, (countBefore ctd cv calls (j + 1)).toInt =
      (calls j).lower (countBefore ctd cv calls j).toInt :=
    fun j le => (counterLaw exact_ctd start valid (Nat.lt_of_le_of_lt le lt)).next
  have loaded : (countBefore ctd cv calls (l + 1)).toInt = (calls l).pv := by
    rw [next l (Nat.le_of_succ_le_succ since.le)]
    exact if_pos load
  have stretch : Stretch lower calls (fun j => (countBefore ctd cv calls j).toInt) (l + 1) _ :=
    since.stretch next
  have counted := lower_run stretch loaded nonneg
  have whole : l + 1 + (i + 1 - (l + 1)) = i + 1 := Nat.add_sub_cancel' since.le
  rwa [whole, Nat.add_sub_add_right] at counted

end Laws

/-- Whatever the inputs and presets of valid calls are, and whichever INT the count begins with, neither
counter wraps, and each answers whether its end is reached. Under one preset, the count of CTU is the number
of edges since the last reset, cut off at the preset. After a load, the count of CTD is what the edges since
then have left of the preset, cut off at zero. -/
theorem counts_without_wrapping (start : cv.OfType .int) (valid : ∀ i < n, (calls i).Valid) :
    (∀ i < n, CounterLaw ctu raise atPreset cv calls i ∧
      let before := (countBefore ctu cv calls i).toInt
      let after := (countBefore ctu cv calls (i + 1)).toInt
      after = before ∨ after = before + 1 ∨ (calls i).controls = true ∧ after = 0) ∧
    (cv.toInt = 0 → ∀ p, 0 ≤ p → (∀ i < n, (calls i).pv = p) → ∀ i < n, ∃ first,
      SinceControl calls first i ∧
        (countBefore ctu cv calls (i + 1)).toInt = min p (counted calls first (i + 1 - first))) ∧
    (∀ i < n, CounterLaw ctd lower atZero cv calls i) ∧
    ∀ l i, (calls l).controls = true → 0 ≤ (calls l).pv → SinceControl calls (l + 1) i → i < n →
      (countBefore ctd cv calls (i + 1)).toInt = max 0 ((calls l).pv - counted calls (l + 1) (i - l)) := by
  refine ⟨fun i lt => ?_, fun zero p nonneg preset i lt => ?_,
    fun i lt => counterLaw exact_ctd start valid lt,
    fun l i load nonneg since lt => counted_down start valid load nonneg since lt⟩
  · have law := counterLaw exact_ctu start valid lt
    refine ⟨law, ?_⟩
    intro before after
    have next : after = (calls i).raise before := law.next
    rw [next]
    exact raise_cases (calls i) before
  · obtain ⟨first, since⟩ := exists_sinceControl calls i
    exact ⟨first, since, counted_up start valid zero nonneg preset since lt⟩

/-- A call with an edge each time and a preset of three. The second call resets one counter and loads the
other. -/
def edgesAfterSecond (i : Nat) : CounterCall where
  edge := .ofNumber .rEdge (.ofBool true)
  control := .ofNumber .bool (.ofBool (i = 1))
  preset := .ofNumber .int (.ofInt 3)
  output := .zero .wstring

/-- Four edges after the second call, CTU has stopped at the preset and CTD at zero. -/
theorem counts_without_wrapping_ends :
    (Value.zero .int).OfType .int ∧ (∀ i < 6, (edgesAfterSecond i).Valid) ∧
      (countBefore ctu (.zero .int) edgesAfterSecond 6).toInt = 3 ∧
      (countBefore ctd (.zero .int) edgesAfterSecond 6).toInt = 0 ∧
      CounterLaw ctu raise atPreset (.zero .int) edgesAfterSecond 5 ∧
      CounterLaw ctd lower atZero (.zero .int) edgesAfterSecond 5 := by
  have start : (Value.zero .int).OfType .int := ⟨wellFormed_zero .int, rfl⟩
  have valid : ∀ i < 6, (edgesAfterSecond i).Valid :=
    fun _ _ => ⟨rfl, rfl, ⟨(wellFormed_zero .int).setNumber _, rfl⟩, wellFormed_zero .wstring⟩
  have since : SinceControl edgesAfterSecond 2 5 := by
    refine ⟨by decide, fun j ge le => ?_, fun j eq => ?_⟩
    · have later : ∀ j ≤ 5, 2 ≤ j → (edgesAfterSecond j).controls = false := by decide +kernel
      exact later j le ge
    · obtain rfl := Nat.succ.inj eq
      decide +kernel
  obtain ⟨up, _, down, unload⟩ := counts_without_wrapping start valid
  have left := unload 1 5 (by decide +kernel) (by decide +kernel) since (by decide)
  have none_left : max 0 ((edgesAfterSecond 1).pv - counted edgesAfterSecond 2 (5 - 1)) = 0 := by
    decide +kernel
  exact ⟨start, valid, by decide +kernel, left.trans none_left, (up 5 (by decide)).1, down 5 (by decide)⟩

end Block

end Plc
