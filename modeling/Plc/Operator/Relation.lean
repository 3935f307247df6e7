import Plc.Operator.Basic

/-!
# Relations

Two strings are ordered as texts, by their characters; any other pair by their numeric views. A
string beside a number reads as zero. Not-a-number has no order and differs from everything.
-/

namespace Plc

/-- The order of two elementary values, if they have one. -/
def Value.order? (a b : Value) : Option Ordering :=
  match a.text?, b.text? with
  | some s, some t => some (compare s.content t.content)
  | _, _ => a.number.compare? b.number

namespace Operator

/-- A relation as a test of the order of its operands. -/
inductive Relation where
  | gt | ge | eq | le | lt | ne
  deriving DecidableEq, Inhabited, Repr

/-- The relation holds between operands of the given order. -/
def Relation.holds : Relation → Option Ordering → Bool
  | gt, order => order = some .gt
  | ge, order => order = some .gt || order = some .eq
  | eq, order => order = some .eq
  | le, order => order = some .lt || order = some .eq
  | lt, order => order = some .lt
  | ne, order => order ≠ some .eq

/-- Turns the result to BOOL and stores whether the relation holds. -/
def relate (relation : Relation) (a b : Value) : Action := do
  a.require [.elementary]
  b.require [.elementary]
  modify (·.retype .bool)
  modify (·.setBool (relation.holds (a.order? b)))

end Operator

end Plc
