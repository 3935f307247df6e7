import Plc.Operator.Basic

/-!
# Selection

These operators make the result a complete copy of one of their operands: type, flags and content.
-/

namespace Plc

namespace Operator

/-- The operand itself. -/
def move (source : Value) : Action := set source

/-- The second input if the selector is true, else the first. -/
def sel (selector ifFalse ifTrue : Value) : Action := do
  selector.requireType .bool
  set (if selector.isTrue then ifTrue else ifFalse)

/-- The better of two operands: the second only if it stands in the wanted order to the first. -/
def better (wanted : Ordering) (best operand : Value) : Value :=
  if operand.number.compare? best.number = some wanted then operand else best

/-- The best of all operands; of equal ones the first popped stays. -/
def extreme (wanted : Ordering) : Call := do
  match ← Call.drainChecked [.num] with
  | [] => throw .nullParameter
  | first :: rest => Call.onResult (set (rest.foldl (better wanted) first))

def greatest : Call := extreme .gt

def least : Call := extreme .lt

/-- The value, or the bound that it passes; the lower bound is looked at first. -/
def limit (value low high : Value) : Action := do
  value.require [.num]
  low.require [.num]
  high.require [.num]
  let chosen :=
    if value.number.compare? low.number = some .lt then low
    else if value.number.compare? high.number = some .gt then high
    else value
  set chosen

/-- The element at a place, a place beyond either end giving the element at that end. -/
def pick? (place : Int) (inputs : List Value) : Option Value :=
  inputs[place.toNat]?.or inputs.getLast?

/-- The operand that an integer selector names, counted from zero in the order of popping. -/
def choose (selector : Value) : Call := do
  match selector.require [.int] with
  | .error fault =>
    Call.flush
    throw fault
  | .ok () =>
    match pick? selector.toInt (← Call.drain) with
    | some input => Call.onResult (set input)
    | none => throw .nullParameter

/-- The multiplexer: the operand pushed first selects among the others in push order. -/
def mux : Call := do
  match (← Call.drain).reverse with
  | [] => throw .nullParameter
  | selector :: inputs => Call.withOperands (.ofList inputs.reverse) (choose selector)

end Operator

end Plc
