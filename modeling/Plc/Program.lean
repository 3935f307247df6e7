import Plc.Fault

/-!
# Programs

Operators and blocks write into containers that their caller keeps. A program is such a piece of work
on a state. It may stop at a fault, and a fault does not take back what was written before it: that a
failed call leaves its containers alone is for every program to see to.
-/

namespace Plc

/-- Work on a state that may stop at a fault. -/
abbrev Program (σ α : Type) := EStateM Fault σ α

namespace Program

variable {σ α : Type}

/-- A check writes nothing: it passes or stops the program. -/
instance : MonadLift (Except Fault) (Program σ) where
  monadLift
    | .ok a => pure a
    | .error fault => throw fault

/-- How a program ended. -/
def status (m : Program σ α) (s : σ) : Status :=
  match m.run s with
  | .ok _ _ => .ok ()
  | .error fault _ => .error fault

/-- The state that a program leaves behind, whether it stopped at a fault or not. -/
def final (m : Program σ α) (s : σ) : σ :=
  match m.run s with
  | .ok _ s' => s'
  | .error _ s' => s'

end Program

end Plc
