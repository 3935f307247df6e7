import Plc.Proofs.Block.Admission
import Plc.Proofs.Value.Integral

/-!
# Edge detectors over whole runs

An edge detector is called again and again on one container, which is its output and also holds the sample of
the call before, in a state flag. Between two calls the container is in the hands of the host, which may turn
it to another type, write into it and set its flags. As long as it leaves that one flag alone, the detector is
not disturbed: the flags survive a change of type, and each call makes a maintained BOOL of the container
before it writes its answer.

R_TRIG keeps the sample and F_TRIG its negation, so that both are one detector, which sees the input as it is
or negated.

Main statements:

* `HostWrite`, `flag1_applyAll`, `wellFormed_applyAll`: what a host may do, and what it leaves alone.
* `Block.detect_run`: one call.
* `Block.flag1_detectedBefore`: the flag holds the sample of the call before, along any run.
* `Block.fires_on_edges`: the laws of the two detectors.
-/

namespace Plc

open Value

/-! ## §1 What a host may do between two calls -/

/-- A write to the container of an edge detector. It may be any but one to the flag in which the detector
keeps its sample. -/
inductive HostWrite where
  | retype (t : DataType)
  | promote (t : DataType)
  | setNumber (n : Number)
  | setText (content : String) (wide hashed : Bool)
  | setDuration (d : Duration)
  /-- The payload stays if the given one has another shape. A checksum in the given one is its own. -/
  | setPayload (p : Payload) (sound : p.Sound)
  | setAttribute (which : Attribute) (on : Bool)
  | setState (which : StateFlag) (other : which ≠ .flag1) (on : Bool)

namespace HostWrite

/-- What the write makes of the container. -/
def apply : HostWrite → Value → Value
  | retype t, v => v.retype t
  | promote t, v => v.promote t
  | setNumber n, v => v.setNumber n
  | setText content wide hashed, v => v.setText content wide hashed
  | setDuration d, v => v.setDuration d
  | setPayload p _, v => (v.setPayload? p).getD v
  | setAttribute which on, v => v.setAttribute which on
  | setState which _ on, v => v.setState which on

/-- One write after the other. -/
def applyAll (writes : List HostWrite) (v : Value) : Value := writes.foldl (fun v write => write.apply v) v

theorem flag1_apply (write : HostWrite) (v : Value) : (write.apply v).state.flag1 = v.state.flag1 := by
  cases write with
  | retype t => exact congrArg StateFlags.flag1 (state_retype v t)
  | promote t =>
    show (v.promote t).state.flag1 = v.state.flag1
    rw [promote_eq, state_retype]
  | setNumber n => rfl
  | setText content wide hashed => exact congrArg StateFlags.flag1 (state_retype v _)
  | setDuration d => exact congrArg StateFlags.flag1 (state_retype v .time)
  | setPayload p sound =>
    show ((v.setPayload? p).getD v).state.flag1 = v.state.flag1
    unfold setPayload?
    split <;> rfl
  | setAttribute which on => rfl
  | setState which other on =>
    cases which with
    | flag1 => exact absurd rfl other
    | initialized => rfl
    | flag2 => rfl

theorem wellFormed_apply (write : HostWrite) {v : Value} (wf : v.WellFormed) : (write.apply v).WellFormed := by
  cases write with
  | retype t => exact wf.retype t
  | promote t => exact closed_wellFormed.toStable.promote v t wf
  | setNumber n => exact wf.setNumber n
  | setText content wide hashed => exact wf.setText content wide hashed
  | setDuration d => exact wf.setDuration d
  | setPayload p sound =>
    show ((v.setPayload? p).getD v).WellFormed
    cases found : v.setPayload? p with
    | none => exact wf
    | some v' => exact wf.setPayload? sound found
  | setAttribute which on => exact closed_wellFormed.setAttribute v which on wf
  | setState which other on => exact closed_wellFormed.setState v which on wf

theorem flag1_applyAll (writes : List HostWrite) (v : Value) :
    (applyAll writes v).state.flag1 = v.state.flag1 := by
  induction writes generalizing v with
  | nil => rfl
  | cons write rest ih => exact (ih (write.apply v)).trans (write.flag1_apply v)

theorem wellFormed_applyAll (writes : List HostWrite) {v : Value} (wf : v.WellFormed) :
    (applyAll writes v).WellFormed := by
  induction writes generalizing v with
  | nil => exact wf
  | cons write rest ih => exact ih (write.wellFormed_apply wf)

end HostWrite

namespace Block

open HostWrite

/-! ## §2 One call -/

/-- What a detector makes of its container when it sees the sample. -/
def detected (sample : Bool) (q : Value) : Value :=
  (((q.retype .bool).setAttribute .maintain true).setBool (sample && !q.state.flag1)).setState .flag1 sample

theorem detect_run (sample : Bool) (q : Value) : (detect sample).run q = .ok () (detected sample q) := by
  have kept : (q.retype .bool).state.flag1 = q.state.flag1 := congrArg StateFlags.flag1 (state_retype q .bool)
  unfold detected
  rw [← kept]
  rfl

theorem isTrue_detected (sample : Bool) {q : Value} (wf : q.WellFormed) :
    (detected sample q).isTrue = (sample && !q.state.flag1) :=
  -- The flags have no part in the truth value.
  wf.flag_retype.isTrue_setBool _

theorem wellFormed_detected (sample : Bool) {q : Value} (wf : q.WellFormed) : (detected sample q).WellFormed :=
  closed_wellFormed.setState _ _ _
    ((closed_wellFormed.setAttribute _ _ _ (wf.retype .bool)).setNumber _)

/-- On a BOOL, the block is the detector of the level that it sees in it. -/
def Senses (block : Value → Action) (level : Bool → Bool) : Prop :=
  ∀ clk q : Value, clk.type = .bool → (block clk).run q = .ok () (detected (level clk.isTrue) q)

theorem senses_rTrig : Senses rTrig id := by
  intro clk q type
  exact (Program.run_check_of_ok (if_pos type) _ q).trans (detect_run clk.isTrue q)

theorem senses_fTrig : Senses fTrig not := by
  intro clk q type
  exact (Program.run_check_of_ok (if_pos type) _ q).trans (detect_run (!clk.isTrue) q)

/-! ## §3 Runs -/

/-- The container before the call of number `i`, in a run on `q`. After each call the host has its turn. -/
def edgeBefore (block : Value → Action) (q : Value) (clk : Nat → Value) (host : Nat → List HostWrite) :
    Nat → Value
  | 0 => q
  | i + 1 => applyAll (host i) ((block (clk i)).final (edgeBefore block q clk host i))

/-- The container after the call of number `i`. -/
def edgeAfter (block : Value → Action) (q : Value) (clk : Nat → Value) (host : Nat → List HostWrite)
    (i : Nat) : Value :=
  (block (clk i)).final (edgeBefore block q clk host i)

/-- The same told of the levels that the detector sees. -/
def detectedBefore (q : Value) (level : Nat → Bool) (host : Nat → List HostWrite) : Nat → Value
  | 0 => q
  | i + 1 => applyAll (host i) (detected (level i) (detectedBefore q level host i))

/-- The sample of the call before the one of number `i`, and `first` where there is none. -/
def previous (first : Bool) (samples : Nat → Bool) : Nat → Bool
  | 0 => first
  | i + 1 => samples i

theorem previous_not (first : Bool) (samples : Nat → Bool) (i : Nat) :
    previous (!first) (fun j => !samples j) i = !previous first samples i := by
  cases i <;> rfl

section Runs

variable {q : Value} {level level' : Nat → Bool} {host : Nat → List HostWrite} {i n : Nat}

/-- A call puts the level that it sees into the flag, and the host leaves it there. -/
theorem flag1_detectedBefore (clear : q.state.flag1 = false) (i : Nat) :
    (detectedBefore q level host i).state.flag1 = previous false level i := by
  cases i with
  | zero => exact clear
  | succ i => exact flag1_applyAll (host i) _

theorem wellFormed_detectedBefore (wf : q.WellFormed) (i : Nat) :
    (detectedBefore q level host i).WellFormed := by
  induction i with
  | zero => exact wf
  | succ i ih => exact wellFormed_applyAll (host i) (wellFormed_detected (level i) ih)

theorem detectedBefore_congr (same : ∀ j < i, level j = level' j) :
    detectedBefore q level host i = detectedBefore q level' host i := by
  induction i with
  | zero => rfl
  | succ i ih =>
    unfold detectedBefore
    rw [ih fun j lt => same j (Nat.lt_succ_of_lt lt), same i (Nat.lt_succ_self i)]

variable {block : Value → Action} {sense : Bool → Bool} {clk : Nat → Value}
variable (senses : Senses block sense) (bools : ∀ j < n, (clk j).type = .bool)
include senses bools

theorem edgeBefore_eq (le : i ≤ n) :
    edgeBefore block q clk host i = detectedBefore q (fun j => sense (clk j).isTrue) host i := by
  induction i with
  | zero => rfl
  | succ i ih =>
    unfold edgeBefore detectedBefore
    rw [ih (Nat.le_of_succ_le le), Program.final_of_ok (senses (clk i) _ (bools i le))]

theorem edgeAfter_eq (lt : i < n) :
    edgeAfter block q clk host i =
      detected (sense (clk i).isTrue) (detectedBefore q (fun j => sense (clk j).isTrue) host i) := by
  unfold edgeAfter
  rw [Program.final_of_ok (senses (clk i) _ (bools i lt)), edgeBefore_eq senses bools (Nat.le_of_lt lt)]

end Runs

/-! ## §4 The laws of the edge detectors -/

/-- The call of number `i` succeeds, and its container becomes a maintained BOOL with the given truth
value. -/
structure EdgeLaw (block : Value → Action) (q : Value) (clk : Nat → Value) (host : Nat → List HostWrite)
    (i : Nat) (fires : Bool) : Prop where
  succeeds : (block (clk i)).status (edgeBefore block q clk host i) = .ok ()
  type : (edgeAfter block q clk host i).type = .bool
  maintained : (edgeAfter block q clk host i).attributes.maintain = true
  answer : (edgeAfter block q clk host i).isTrue = fires

section Laws

variable {q : Value} {clk : Nat → Value} {n : Nat}

theorem edgeLaw {block : Value → Action} {sense : Bool → Bool} (senses : Senses block sense)
    (wf : q.WellFormed) (clear : q.state.flag1 = false) (bools : ∀ j < n, (clk j).type = .bool)
    (host : Nat → List HostWrite) {i : Nat} (lt : i < n) :
    EdgeLaw block q clk host i
      (sense (clk i).isTrue && !previous false (fun j => sense (clk j).isTrue) i) where
  succeeds := Program.status_of_ok (senses (clk i) _ (bools i lt))
  type := by
    rw [edgeAfter_eq senses bools lt]
    exact type_retype _ .bool
  maintained := by
    rw [edgeAfter_eq senses bools lt]
    rfl
  answer := by
    rw [edgeAfter_eq senses bools lt, isTrue_detected _ (wellFormed_detectedBefore wf i),
      flag1_detectedBefore clear]

/-- From a container with the flag clear, R_TRIG fires on a true sample after one that is not, with a false
one before the first. F_TRIG fires on a false sample after one that is not, with a true one before the first,
and leaves what R_TRIG leaves on the negated samples. -/
theorem fires_on_edges (wf : q.WellFormed) (clear : q.state.flag1 = false)
    (bools : ∀ i < n, (clk i).type = .bool) (host : Nat → List HostWrite) :
    let samples := fun i => (clk i).isTrue
    (∀ i < n, EdgeLaw rTrig q clk host i (samples i && !previous false samples i)) ∧
    (∀ i < n, EdgeLaw fTrig q clk host i (!samples i && previous true samples i)) ∧
    ∀ clk' : Nat → Value, (∀ i < n, (clk' i).type = .bool ∧ (clk' i).isTrue = !samples i) →
      ∀ i < n, edgeAfter fTrig q clk host i = edgeAfter rTrig q clk' host i := by
  intro samples
  refine ⟨fun i lt => edgeLaw senses_rTrig wf clear bools host lt, fun i lt => ?_,
    fun clk' negated i lt => ?_⟩
  · have law := edgeLaw senses_fTrig wf clear bools host lt
    have before : previous false (fun j => !(clk j).isTrue) i = !previous true samples i :=
      previous_not true samples i
    rwa [before, Bool.not_not] at law
  · have bools' : ∀ j < n, (clk' j).type = .bool := fun j lt => (negated j lt).1
    have same : ∀ j < i, (!samples j) = id (clk' j).isTrue :=
      fun j before => (negated j (Nat.lt_trans before lt)).2.symm
    rw [edgeAfter_eq senses_fTrig bools lt, edgeAfter_eq senses_rTrig bools' lt, detectedBefore_congr same]
    exact congrArg (detected · _) (negated i lt).2.symm

/-- The host turns the container to a text and takes its attribute away after each call. -/
theorem fires_on_edges_overwritten :
    let q := (Value.zero .timer).setState .flag2 true
    let clk (i : Nat) := Value.ofNumber .bool (.ofBool (i = 1 ∨ i = 2))
    let clk' (i : Nat) := Value.ofNumber .bool (.ofBool (i ≠ 1 ∧ i ≠ 2))
    let host (_ : Nat) : List HostWrite :=
      [.setText "host" true true, .setAttribute .maintain false, .setState .initialized (by decide) true]
    q.WellFormed ∧ q.state.flag1 = false ∧ (∀ i < 4, (clk i).type = .bool) ∧
      EdgeLaw rTrig q clk host 1 true ∧ EdgeLaw rTrig q clk host 2 false ∧
      EdgeLaw fTrig q clk host 0 true ∧ EdgeLaw fTrig q clk host 3 true ∧
      edgeAfter fTrig q clk host 3 = edgeAfter rTrig q clk' host 3 := by
  intro q clk clk' host
  have wf : q.WellFormed := closed_wellFormed.setState _ .flag2 true (wellFormed_zero .timer)
  have bools : ∀ i < 4, (clk i).type = .bool := fun _ _ => rfl
  have negated : ∀ i < 4, (clk' i).type = .bool ∧ (clk' i).isTrue = !(clk i).isTrue := by decide +kernel
  obtain ⟨rising, falling, same⟩ := fires_on_edges wf rfl bools host
  exact ⟨wf, rfl, bools, rising 1 (by decide), rising 2 (by decide), falling 0 (by decide),
    falling 3 (by decide), same clk' negated 3 (by decide)⟩

end Laws

end Block

end Plc
