import Plc.Program

/-!
# What programs leave behind

A fault does not take back what was written before it, so whether a failed program left its state
alone depends on where its checks stand. Three judgements on programs say how a property of states
fares:

* `Keeps P m`: the state left behind has `P` if the one given had it.
* `Writes P m`: the program never stops, and it keeps `P`.
* `Settles P m`: the program keeps `P` where it succeeds, and where it stops at a fault the state is
  the one that it was given.

A program settles if all its checks come before its first write. The rules below follow the shape of
programs: checks first (`settles_check`), then writes (`writes_modify`, `writes_bind`).

A fourth judgement is about two runs of one program: `Couples R Q m` takes states that `R` relates to
states that `Q` relates, with one outcome or one fault for both.

A fifth one says which of the two ends a run comes to: `Gated fault accepted Q m s` if the program
succeeds exactly under a condition on its arguments, and stops at the fault otherwise. It follows from
the checks in front, each of which is a question of its own (`Checks`).

A sixth one compares the two ends of a run: `Leaves R m` if each successful run leads from a state to one
that `R` relates to it.
-/

namespace Plc.Program

variable {σ α β : Type} {P : σ → Prop}

/-- Whatever the outcome, the program keeps `P`. -/
def Keeps (P : σ → Prop) (m : Program σ α) : Prop := ∀ s, P s → P (m.final s)

/-- From a state with `P`, the program does not stop, and keeps `P`. -/
def Writes (P : σ → Prop) (m : Program σ α) : Prop :=
  ∀ s, P s → ∃ a s', m.run s = .ok a s' ∧ P s'

/-- All or nothing, from a state with `P`: the program succeeds and keeps `P`, or it stops and leaves
the state as it was. -/
def Settles (P : σ → Prop) (m : Program σ α) : Prop :=
  ∀ s, P s → (∃ a s', m.run s = .ok a s' ∧ P s') ∨ ∃ fault, m.run s = .error fault s

/-! ## §1 Ends of a run -/

theorem status_of_ok {m : Program σ α} {s s' : σ} {a : α} (run : m.run s = .ok a s') :
    m.status s = .ok () := by
  unfold status
  rw [run]

theorem final_of_ok {m : Program σ α} {s s' : σ} {a : α} (run : m.run s = .ok a s') :
    m.final s = s' := by
  unfold final
  rw [run]

theorem status_of_error {m : Program σ α} {s s' : σ} {fault : Fault}
    (run : m.run s = .error fault s') : m.status s = .error fault := by
  unfold status
  rw [run]

theorem final_of_error {m : Program σ α} {s s' : σ} {fault : Fault}
    (run : m.run s = .error fault s') : m.final s = s' := by
  unfold final
  rw [run]

/-- Modifying the state for item after item leaves what folding over the items gives. -/
theorem run_forM_modify {ι : Type} (g : σ → ι → σ) (items : List ι) (s : σ) :
    (items.forM fun i => (modify (g · i) : Program σ PUnit)).run s = .ok ⟨⟩ (items.foldl g s) := by
  induction items generalizing s with
  | nil => rfl
  | cons i rest ih => exact ih (g s i)

theorem run_check_of_ok {x : Except Fault α} {a : α} (passed : x = .ok a) (f : α → Program σ β)
    (s : σ) : ((liftM x : Program σ α) >>= f).run s = (f a).run s := by
  rw [passed]
  rfl

theorem run_check_of_error {x : Except Fault α} {fault : Fault} (failed : x = .error fault)
    (f : α → Program σ β) (s : σ) :
    ((liftM x : Program σ α) >>= f).run s = .error fault s := by
  rw [failed]
  rfl

/-! ## §2 Writing -/

theorem writes_modify {g : σ → σ} (keeps : ∀ s, P s → P (g s)) : Writes P (modify g) :=
  fun s holds => ⟨(), g s, rfl, keeps s holds⟩

theorem writes_set {s₀ : σ} (holds : P s₀) : Writes P (set s₀) :=
  fun _ _ => ⟨(), s₀, rfl, holds⟩

theorem writes_pure (a : α) : Writes P (pure a) := fun s holds => ⟨a, s, rfl, holds⟩

theorem writes_bind {m : Program σ α} {f : α → Program σ β}
    (first : Writes P m) (rest : ∀ a, Writes P (f a)) : Writes P (m >>= f) := by
  intro s holds
  obtain ⟨a, s₁, run₁, holds₁⟩ := first s holds
  obtain ⟨b, s₂, run₂, holds₂⟩ := rest a s₁ holds₁
  refine ⟨b, s₂, ?_, holds₂⟩
  rw [EStateM.run_bind, run₁]
  exact run₂

/-- What a program reads may be anything. -/
theorem writes_get {f : σ → Program σ β} (rest : ∀ s, Writes P (f s)) : Writes P (get >>= f) :=
  fun s holds => rest s s holds

/-- Writing item after item: a list is gone through from its head, so the induction is on the list. -/
theorem writes_forM {ι : Type} {items : List ι} {f : ι → Program σ PUnit}
    (each : ∀ i ∈ items, Writes P (f i)) : Writes P (items.forM f) := by
  induction items with
  | nil => exact writes_pure _
  | cons i rest ih =>
    have tail : Writes P (rest.forM f) := ih fun j mem => each j (List.mem_cons_of_mem i mem)
    exact writes_bind (each i List.mem_cons_self) fun _ => tail

/-! ## §3 Checking -/

/-- A program that only writes settles: there is no fault to leave a state behind. -/
theorem Writes.settles {m : Program σ α} (writes : Writes P m) : Settles P m :=
  fun s holds => Or.inl (writes s holds)

/-- A check in front: it stops before anything is written, or hands its outcome on. -/
theorem settles_check {x : Except Fault α} {f : α → Program σ β}
    (rest : ∀ a, x = .ok a → Settles P (f a)) : Settles P ((liftM x : Program σ α) >>= f) := by
  intro s holds
  cases x with
  | ok a => exact rest a rfl s holds
  | error fault => exact Or.inr ⟨fault, rfl⟩

/-- A look at the state in front. -/
theorem settles_get {f : σ → Program σ β} (rest : ∀ s, Settles P (f s)) : Settles P (get >>= f) :=
  fun s holds => rest s s holds

theorem settles_throw {fault : Fault} : Settles P (throw fault : Program σ α) :=
  fun _ _ => Or.inr ⟨fault, rfl⟩

/-! ## §4 Keeping -/

theorem Settles.keeps {m : Program σ α} (settles : Settles P m) : Keeps P m := by
  intro s holds
  rcases settles s holds with ⟨a, s', run, holds'⟩ | ⟨fault', run⟩
  · rw [final_of_ok run]
    exact holds'
  · rw [final_of_error run]
    exact holds

theorem keeps_bind {m : Program σ α} {f : α → Program σ β}
    (first : Keeps P m) (rest : ∀ a, Keeps P (f a)) : Keeps P (m >>= f) := by
  intro s holds
  have middle := first s holds
  unfold final at middle ⊢
  rw [EStateM.run_bind]
  cases run : m.run s with
  | ok a s₁ =>
    rw [run] at middle
    exact rest a s₁ middle
  | error fault s₁ =>
    rw [run] at middle
    exact middle

/-- A look at the state in front. -/
theorem keeps_get {f : σ → Program σ β} (rest : ∀ s, Keeps P (f s)) : Keeps P (get >>= f) :=
  fun s => rest s s

/-- A check in front. -/
theorem keeps_check {x : Except Fault α} {f : α → Program σ β}
    (rest : ∀ a, x = .ok a → Keeps P (f a)) : Keeps P ((liftM x : Program σ α) >>= f) := by
  intro s holds
  cases x with
  | ok a => exact rest a rfl s holds
  | error fault => exact holds

/-! ## §5 Two runs -/

/-- From states that `R` relates, two runs end alike: both succeed, with one outcome and in states that
`Q` relates, or both stop at one fault. -/
def Couples (R Q : σ → σ → Prop) (m : Program σ α) : Prop :=
  ∀ s s', R s s' → (∃ a t t', m.run s = .ok a t ∧ m.run s' = .ok a t' ∧ Q t t') ∨
    ∃ fault t t', m.run s = .error fault t ∧ m.run s' = .error fault t'

variable {R S Q : σ → σ → Prop}

/-- A program has one run from one state. -/
theorem couples_eq (m : Program σ α) : Couples Eq Eq m := by
  rintro s _ rfl
  cases run : m.run s with
  | ok a t => exact Or.inl ⟨a, t, t, rfl, rfl, rfl⟩
  | error fault t => exact Or.inr ⟨fault, t, t, rfl, rfl⟩

theorem couples_modify {g : σ → σ} (related : ∀ s s', R s s' → Q (g s) (g s')) :
    Couples R Q (modify g) :=
  fun s s' holds => Or.inl ⟨(), g s, g s', rfl, rfl, related s s' holds⟩

/-- What is set in one run is set in the other, whatever was there. -/
theorem couples_set (s₀ : σ) : Couples R Eq (set s₀) :=
  fun _ _ _ => Or.inl ⟨(), s₀, s₀, rfl, rfl, rfl⟩

theorem couples_throw (fault : Fault) : Couples R Q (throw fault : Program σ α) :=
  fun s s' _ => Or.inr ⟨fault, s, s', rfl, rfl⟩

theorem couples_bind {m : Program σ α} {f : α → Program σ β}
    (first : Couples R S m) (rest : ∀ a, Couples S Q (f a)) : Couples R Q (m >>= f) := by
  intro s s' holds
  rcases first s s' holds with ⟨a, t, t', run, run', holds'⟩ | ⟨fault, t, t', run, run'⟩
  · have second := rest a t t' holds'
    rw [EStateM.run_bind, EStateM.run_bind, run, run']
    exact second
  · refine Or.inr ⟨fault, t, t', ?_, ?_⟩
    · rw [EStateM.run_bind, run]
    · rw [EStateM.run_bind, run']

/-- A check in front reads no state, so it comes out the same in both runs. -/
theorem couples_check {x : Except Fault α} {f : α → Program σ β}
    (rest : ∀ a, x = .ok a → Couples R Q (f a)) : Couples R Q ((liftM x : Program σ α) >>= f) := by
  intro s s' holds
  cases x with
  | ok a => exact rest a rfl s s' holds
  | error fault => exact Or.inr ⟨fault, s, s', rfl, rfl⟩

/-- A program on a part of the state, of which the rest is left alone. -/
theorem couples_within {τ : Type} {R' Q' : τ → τ → Prop} {inner : Program τ Unit} {m : Program σ Unit}
    (couples : Couples R' Q' inner) (part : σ → τ) (put : σ → τ → σ)
    (runs : ∀ s, m.run s = match inner.run (part s) with
      | .ok _ t => .ok () (put s t)
      | .error fault t => .error fault (put s t))
    (enter : ∀ s s', R s s' → R' (part s) (part s'))
    (leave : ∀ s s' t t', R s s' → Q' t t' → Q (put s t) (put s' t')) : Couples R Q m := by
  intro s s' holds
  rw [runs, runs]
  rcases couples _ _ (enter s s' holds) with ⟨a, t, t', run, run', holds'⟩ | ⟨fault, t, t', run, run'⟩
  · rw [run, run']
    exact Or.inl ⟨(), _, _, rfl, rfl, leave s s' t t' holds holds'⟩
  · rw [run, run']
    exact Or.inr ⟨fault, _, _, rfl, rfl⟩

/-! ## §6 Gates -/

/-- The check passes exactly under the condition, and stops at the fault otherwise. -/
structure Checks (fault : Fault) (accepted : Prop) (x : Status) : Prop where
  passes : accepted → x = .ok ()
  stops : ¬accepted → x = .error fault

/-- From the state `s`, the program succeeds exactly under the condition, in a state with `Q`; otherwise
it stops at the fault and leaves the state as it was. -/
structure Gated (fault : Fault) (accepted : Prop) (Q : σ → Prop) (m : Program σ α) (s : σ) : Prop where
  passes : accepted → ∃ a s', m.run s = .ok a s' ∧ Q s'
  stops : ¬accepted → m.run s = .error fault s

section Gates

variable {fault : Fault} {accepted accepted' : Prop} {Q R : σ → Prop} {s : σ}

/-- One check after the other asks both questions. -/
theorem Checks.bind {x y : Status} (first : Checks fault accepted x)
    (second : Checks fault accepted' y) :
    Checks fault (accepted ∧ accepted') (x >>= fun _ => y) := by
  by_cases holds : accepted
  case pos =>
    rw [first.passes holds]
    exact ⟨fun both => second.passes both.2, fun none => second.stops fun last => none ⟨holds, last⟩⟩
  case neg =>
    rw [first.stops holds]
    exact ⟨fun both => absurd both.1 holds, fun _ => rfl⟩

/-- A look at the state in front. -/
theorem gated_get {f : σ → Program σ α} (rest : Gated fault accepted Q (f s) s) :
    Gated fault accepted Q (get >>= f) s := ⟨rest.passes, rest.stops⟩

/-- A check in front of a program that succeeds once the check has passed. -/
theorem gated_check {x : Status} {f : Unit → Program σ α} (checks : Checks fault accepted x)
    (writes : accepted → ∃ a s', (f ()).run s = .ok a s' ∧ Q s') :
    Gated fault accepted Q ((liftM x : Program σ Unit) >>= f) s := by
  constructor
  · intro holds
    rw [run_check_of_ok (checks.passes holds)]
    exact writes holds
  · intro refused
    exact run_check_of_error (checks.stops refused) f s

/-- A check in front of a program with a gate of its own. -/
theorem gated_check_gated {x : Status} {f : Unit → Program σ α} (checks : Checks fault accepted x)
    (rest : accepted → Gated fault accepted' Q (f ()) s) :
    Gated fault (accepted ∧ accepted') Q ((liftM x : Program σ Unit) >>= f) s := by
  by_cases holds : accepted
  case pos =>
    have passed := run_check_of_ok (checks.passes holds) f s
    constructor
    · intro both
      rw [passed]
      exact (rest holds).passes both.2
    · intro none
      rw [passed]
      exact (rest holds).stops fun last => none ⟨holds, last⟩
  case neg =>
    exact ⟨fun both => absurd both.1 holds, fun _ => run_check_of_error (checks.stops holds) f s⟩

/-- What comes after the gate and cannot stop. -/
theorem Gated.bind {m : Program σ α} {f : α → Program σ β} (first : Gated fault accepted R m s)
    (rest : ∀ a s', R s' → ∃ b s'', (f a).run s' = .ok b s'' ∧ Q s'') :
    Gated fault accepted Q (m >>= f) s := by
  constructor
  · intro holds
    obtain ⟨a, s', run, middle⟩ := first.passes holds
    rw [EStateM.run_bind, run]
    exact rest a s' middle
  · intro refused
    rw [EStateM.run_bind, first.stops refused]

end Gates

/-! ## §7 Before and after -/

/-- Where the program succeeds, `R` relates the state before to the state after. -/
def Leaves (R : σ → σ → Prop) (m : Program σ α) : Prop := ∀ s a s', m.run s = .ok a s' → R s s'

theorem leaves_modify {g : σ → σ} (related : ∀ s, R s (g s)) : Leaves R (modify g) := by
  intro s _ _ run
  cases run
  exact related s

theorem leaves_set {s₀ : σ} (related : ∀ s, R s s₀) : Leaves R (set s₀) := by
  intro s _ _ run
  cases run
  exact related s

/-- A program that never succeeds leaves nothing to relate. -/
theorem leaves_throw (fault : Fault) : Leaves R (throw fault : Program σ α) := by
  intro _ _ _ run
  cases run

theorem leaves_bind {m : Program σ α} {f : α → Program σ β} (first : Leaves R m)
    (rest : ∀ a, Leaves S (f a)) (compose : ∀ s s' s'', R s s' → S s' s'' → Q s s'') :
    Leaves Q (m >>= f) := by
  intro s b s'' run
  rw [EStateM.run_bind] at run
  cases middle : m.run s with
  | ok a s' =>
    rw [middle] at run
    exact compose s s' s'' (first s a s' middle) (rest a s' b s'' run)
  | error fault s' =>
    rw [middle] at run
    cases run

/-- A check in front reads no state. -/
theorem leaves_check {x : Except Fault α} {f : α → Program σ β}
    (rest : ∀ a, x = .ok a → Leaves R (f a)) : Leaves R ((liftM x : Program σ α) >>= f) := by
  intro s b s' run
  cases x with
  | ok a => exact rest a rfl s b s' run
  | error fault => cases run

/-- What a program keeps of each state that it starts from, it keeps of the state before. -/
theorem leaves_of_settles {m : Program σ α} (start : ∀ s, R s s) (settles : ∀ s, Settles (R s) m) :
    Leaves R m := by
  intro s a s' run
  rcases settles s s (start s) with ⟨_, _, run', related⟩ | ⟨_, run'⟩
  · rw [run] at run'
    cases run'
    exact related
  · rw [run] at run'
    cases run'

end Plc.Program
