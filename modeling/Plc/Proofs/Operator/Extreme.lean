import Plc.Operator.Selection
import Plc.Proofs.Conversion.Truncation
import Plc.Proofs.Library.Dispatch
import Plc.Proofs.Value.Order

/-!
# Extremes and limits

MAX and MIN go through their operands in the order of popping and keep the best one so far, which gives way
to an operand only if that is strictly better. Numbers of both kinds may be mixed, and not-a-number may be
among them. Then "equal" is not transitive and some numbers have no order, but "better" still is transitive,
and this is all that the scan needs: what it ends with was the first operand, or is better than that.

LIMIT asks about its bounds one after the other, in an order and with comparisons of its own. If the lower
bound is not above the upper one, it chooses the same operand as MIN after MAX.

Main statements:

* `Extreme`, `extreme_foldl`: what a scan chooses, by induction on the operands.
* `Library.standard_extremes`: MAX and MIN.
* `Operator.limit_run`: LIMIT is MIN after MAX.
* `Library.standard_clamps`: LIMIT keeps within its bounds, and changes nothing there.
-/

namespace Plc

open Operator Value

/-! ## §1 Numbers in values -/

/-- A well-formed value of a numeric type: signed, unsigned or real. -/
structure Value.AnyNum (v : Value) : Prop where
  wf : v.WellFormed
  num : v.type.belongs .num = true

namespace Value.AnyNum

variable {v : Value}

theorem ofNumber {t : DataType} (num : t.belongs .num = true) (n : Number) : (ofNumber t n).AnyNum :=
  ⟨(wellFormed_zero t).setNumber n, num⟩

theorem belongsAny (num : v.AnyNum) : v.belongsAny [.num] = true :=
  (num.wf.belongsAny_eq _).trans (List.any_eq_true.mpr ⟨_, List.mem_singleton_self _, num.num⟩)

theorem require_eq (num : v.AnyNum) : v.require [.num] = .ok () := if_pos num.belongsAny

/-- The type tells whether the number is an integer or a real. -/
theorem isReal_number (num : v.AnyNum) : v.number.isReal = v.type.isReal := by
  cases real : v.type.isReal with
  | true =>
    obtain ⟨x, found, _⟩ := num.wf.exists_double real
    rw [number_of_number? found]
    rfl
  | false =>
    have int : v.type.belongs .int = true := by
      have member : (v.type.belongs .int || v.type.isReal) = true := num.num
      rwa [real, Bool.or_false] at member
    rw [Word.number_eq ⟨num.wf, DataType.isWord_of_int int⟩]
    rfl

end Value.AnyNum

/-! ## §2 One step -/

namespace Operator

variable {wanted : Ordering} {best operand : Value}

theorem better_of_beats (beats : operand.number.compare? best.number = some wanted) :
    better wanted best operand = operand := if_pos beats

theorem better_of_not_beats (loses : operand.number.compare? best.number ≠ some wanted) :
    better wanted best operand = best := if_neg loses

theorem better_eq_or (wanted : Ordering) (best operand : Value) :
    better wanted best operand = operand ∨ better wanted best operand = best := by
  by_cases beats : operand.number.compare? best.number = some wanted
  · exact Or.inl (better_of_beats beats)
  · exact Or.inr (better_of_not_beats beats)

/-- The operand is not better than the better one. -/
theorem compare?_better_ne (differ : wanted ≠ .eq) (best operand : Value) :
    operand.number.compare? (better wanted best operand).number ≠ some wanted := by
  by_cases beats : operand.number.compare? best.number = some wanted
  case pos =>
    rw [better_of_beats beats]
    exact Number.compare?_self_ne differ _
  case neg =>
    rw [better_of_not_beats beats]
    exact beats

end Operator

/-! ## §3 The scan -/

/-- What is chosen from operands, which are listed in the order of popping: an operand that none is better
than, and the first one of its kind, integer or real, among those that are equal to it. -/
structure Extreme (wanted : Ordering) (operands : List Value) (chosen : Value) : Prop where
  unbeaten : ∀ v ∈ operands, v.number.compare? chosen.number ≠ some wanted
  first : ∃ earlier later, operands = earlier ++ chosen :: later ∧
    ∀ v ∈ earlier, v.type.isReal = chosen.type.isReal → v.number.compare? chosen.number ≠ some .eq

namespace Extreme

variable {wanted : Ordering} {operands rest : List Value} {first chosen v : Value}

theorem mem (extreme : Extreme wanted operands chosen) : chosen ∈ operands := by
  obtain ⟨earlier, later, rfl, _⟩ := extreme.first
  simp

theorem singleton (differ : wanted ≠ .eq) (v : Value) : Extreme wanted [v] v where
  unbeaten := by simpa using Number.compare?_self_ne differ v.number
  first := ⟨[], [], rfl, by simp⟩

/-- An operand that is worse than the chosen one may have come before. -/
theorem cons (differ : wanted ≠ .eq) (extreme : Extreme wanted operands chosen)
    (beats : chosen.number.compare? v.number = some wanted) : Extreme wanted (v :: operands) chosen where
  unbeaten := by
    refine List.forall_mem_cons.mpr ⟨fun wins => ?_, extreme.unbeaten⟩
    exact Number.compare?_self_ne differ _ (Number.compare?_trans differ beats wins)
  first := by
    obtain ⟨earlier, later, rfl, unequal⟩ := extreme.first
    refine ⟨v :: earlier, later, rfl, List.forall_mem_cons.mpr ⟨fun _ equal => ?_, unequal⟩⟩
    rw [Number.compare?_swap, equal] at beats
    exact differ (Option.some.inj beats).symm

/-- An operand that was not better than the first one may have come after it. -/
theorem insert (differ : wanted ≠ .eq) (extreme : Extreme wanted (first :: rest) chosen)
    (reached : chosen = first ∨ chosen.number.compare? first.number = some wanted)
    (loses : v.number.compare? first.number ≠ some wanted) (num : v.AnyNum) (num' : chosen.AnyNum) :
    Extreme wanted (first :: v :: rest) chosen := by
  have unbeaten := List.forall_mem_cons.mp extreme.unbeaten
  rcases reached with rfl | beats
  · -- The first operand has stayed, and nothing comes before it.
    refine ⟨List.forall_mem_cons.mpr ⟨unbeaten.1, List.forall_mem_cons.mpr ⟨loses, unbeaten.2⟩⟩, ?_⟩
    exact ⟨[], v :: rest, rfl, by simp⟩
  · have loses' : v.number.compare? chosen.number ≠ some wanted := by
      intro wins
      exact loses (Number.compare?_trans differ wins beats)
    refine ⟨List.forall_mem_cons.mpr ⟨unbeaten.1, List.forall_mem_cons.mpr ⟨loses', unbeaten.2⟩⟩, ?_⟩
    obtain ⟨earlier, later, split, unequal⟩ := extreme.first
    cases earlier with
    | nil =>
      -- The first operand is not better than itself.
      obtain ⟨rfl, _⟩ := List.cons.inj split
      exact absurd beats (Number.compare?_self_ne differ _)
    | cons u earlier =>
      obtain ⟨rfl, rfl⟩ := List.cons.inj split
      obtain ⟨unequal_first, unequal_rest⟩ := List.forall_mem_cons.mp unequal
      refine ⟨first :: v :: earlier, later, rfl, List.forall_mem_cons.mpr ⟨unequal_first, ?_⟩⟩
      refine List.forall_mem_cons.mpr ⟨fun kind equal => ?_, unequal_rest⟩
      -- If it were equal to the chosen one, it would have been better than the first one too.
      have kinds : v.number.isReal = chosen.number.isReal := by
        rw [num.isReal_number, num'.isReal_number, kind]
      rw [Number.compare?_congr equal kinds] at loses
      exact loses beats

end Extreme

section Scan

variable {wanted : Ordering}

/-- A scan ends with the operand that it began with, or with a better one. -/
theorem foldl_better_eq_or (differ : wanted ≠ .eq) (first : Value) (rest : List Value) :
    rest.foldl (better wanted) first = first ∨
      (rest.foldl (better wanted) first).number.compare? first.number = some wanted := by
  induction rest generalizing first with
  | nil => exact Or.inl rfl
  | cons v rest ih =>
    rw [List.foldl_cons]
    by_cases beats : v.number.compare? first.number = some wanted
    case pos =>
      rw [better_of_beats beats]
      rcases ih v with same | beats'
      · exact Or.inr (same.symm ▸ beats)
      · exact Or.inr (Number.compare?_trans differ beats' beats)
    case neg =>
      rw [better_of_not_beats beats]
      exact ih first

/-- By induction on the operands that are still to be looked at, whichever is the best one so far. -/
theorem extreme_foldl (differ : wanted ≠ .eq) {first : Value} {rest : List Value}
    (nums : ∀ v ∈ first :: rest, v.AnyNum) :
    Extreme wanted (first :: rest) (rest.foldl (better wanted) first) := by
  induction rest generalizing first with
  | nil => exact .singleton differ first
  | cons v rest ih =>
    obtain ⟨num, others⟩ := List.forall_mem_cons.mp nums
    have num' := (List.forall_mem_cons.mp others).1
    rw [List.foldl_cons]
    by_cases beats : v.number.compare? first.number = some wanted
    case pos =>
      -- The operand takes over. What the scan ends with is at least as good, and so better than the one before.
      rw [better_of_beats beats]
      refine (ih others).cons differ ?_
      rcases foldl_better_eq_or differ v rest with same | beats'
      · exact same.symm ▸ beats
      · exact Number.compare?_trans differ beats' beats
    case neg =>
      -- The scan goes on as if the operand had not been there.
      rw [better_of_not_beats beats]
      have nums' : ∀ u ∈ first :: rest, u.AnyNum :=
        List.forall_mem_cons.mpr ⟨num, (List.forall_mem_cons.mp others).2⟩
      have extreme := ih nums'
      exact extreme.insert differ (foldl_better_eq_or differ first rest) beats num' (nums' _ extreme.mem)

end Scan

/-! ## §4 Calls to MAX and MIN -/

/-- On operands that pass the check, the new result is one of them, whatever the old one was. -/
theorem Operator.extreme_run (wanted : Ordering) {first : Value} {rest : List Value}
    (nums : ∀ v ∈ first :: rest, v.AnyNum) (result : Value) :
    (extreme wanted).run ⟨result, ⟨first :: rest⟩⟩ = .ok () ⟨rest.foldl (better wanted) first, .empty⟩ := by
  unfold extreme
  rw [EStateM.run_bind, Call.drainChecked_run fun v mem => (nums v mem).belongsAny]
  exact Call.onResult_of_ok .empty rfl

namespace Library

variable {lib : Library} {name : String} {wanted : Ordering}

theorem find?_max (mode : PowerMode) (profile : LiteralProfile) :
    (standard mode profile).find? "MAX" = some (.variadic (extreme .gt)) :=
  find?_standard profile (by simp [standardEntries, greatest])

theorem find?_min (mode : PowerMode) (profile : LiteralProfile) :
    (standard mode profile).find? "MIN" = some (.variadic (extreme .lt)) :=
  find?_standard profile (by simp [standardEntries, least])

theorem call_extreme (found : lib.find? name = some (.variadic (extreme wanted))) {first : Value}
    {rest : List Value} (nums : ∀ v ∈ first :: rest, v.AnyNum) (result : Value) :
    lib.call name result ⟨first :: rest⟩ = ⟨.ok (), rest.foldl (better wanted) first, .empty⟩ :=
  call_of_ok found (extreme_run wanted nums result)

/-- Called on the stack, the operator empties it and leaves a complete copy of an extreme operand in the
container. -/
def Chooses (lib : Library) (name : String) (result : Value) (operands : OperandStack)
    (wanted : Ordering) : Prop :=
  ∃ chosen, lib.call name result operands = ⟨.ok (), chosen, .empty⟩ ∧ Extreme wanted operands.popOrder chosen

/-- On any operands of numeric types, MAX chooses a greatest one and MIN a least one. -/
theorem standard_extremes (mode : PowerMode) (profile : LiteralProfile) (result : Value) {first : Value}
    {rest : List Value} (nums : ∀ v ∈ first :: rest, v.AnyNum) :
    (standard mode profile).Chooses "MAX" result ⟨first :: rest⟩ .gt ∧
      (standard mode profile).Chooses "MIN" result ⟨first :: rest⟩ .lt := by
  constructor
  · exact ⟨_, call_extreme (find?_max mode profile) nums result, extreme_foldl (by decide) nums⟩
  · exact ⟨_, call_extreme (find?_min mode profile) nums result, extreme_foldl (by decide) nums⟩

/-- An LREAL that is equal to two different integers, these integers, and not-a-number among them. -/
theorem standard_extremes_mixed :
    let double := Value.ofNumber .lreal (.ofInt (2 ^ 53))
    let odd := Value.ofNumber .lint (.ofInt (2 ^ 53 + 1))
    let nan := Value.ofNumber .real (.real .nan)
    let even := Value.ofNumber .ulint (.ofInt (2 ^ 53))
    (∀ v ∈ [double, odd, nan, even], v.AnyNum) ∧
      (standard .power {}).Chooses "MAX" .null ⟨[double, odd, nan, even]⟩ .gt ∧
      (standard .power {}).Chooses "MIN" .null ⟨[double, odd, nan, even]⟩ .lt := by
  intro double odd nan even
  have nums : ∀ v ∈ [double, odd, nan, even], v.AnyNum := by
    simp only [List.forall_mem_cons]
    exact ⟨.ofNumber rfl _, .ofNumber rfl _, .ofNumber rfl _, .ofNumber rfl _, List.forall_mem_nil _⟩
  exact ⟨nums, standard_extremes .power {} .null nums⟩

end Library

/-! ## §5 Limits -/

namespace Operator

variable {low value high : Value}

/-- What MIN after MAX chooses is within the bounds. -/
theorem better_within (value : Value) (ordered : low.number.compare? high.number ≠ some .gt) :
    (better .lt (better .gt value low) high).number.compare? low.number ≠ some .lt ∧
      (better .lt (better .gt value low) high).number.compare? high.number ≠ some .gt := by
  constructor
  · have above : low.number.compare? (better .gt value low).number ≠ some .gt :=
      compare?_better_ne (by decide) value low
    rw [Ne, Number.compare?_lt_iff]
    rcases better_eq_or .lt (better .gt value low) high with same | same
    · rwa [same]
    · rwa [same]
  · rw [Ne, ← Number.compare?_lt_iff]
    exact compare?_better_ne (by decide) (better .gt value low) high

/-- What is within the bounds already is chosen by MIN after MAX. -/
theorem better_of_within (above : value.number.compare? low.number ≠ some .lt)
    (below : value.number.compare? high.number ≠ some .gt) :
    better .lt (better .gt value low) high = value := by
  have stays : better .gt value low = value := better_of_not_beats (mt Number.compare?_lt_iff.mpr above)
  rw [stays]
  exact better_of_not_beats (mt Number.compare?_lt_iff.mp below)

theorem limit_run (num : low.AnyNum) (num' : value.AnyNum) (num'' : high.AnyNum)
    (ordered : low.number.compare? high.number ≠ some .gt) (result : Value) :
    (limit value low high).run result = .ok () (better .lt (better .gt value low) high) := by
  unfold limit
  rw [Program.run_check_of_ok num'.require_eq, Program.run_check_of_ok num.require_eq,
    Program.run_check_of_ok num''.require_eq]
  apply congrArg (EStateM.Result.ok ())
  -- Both ask the same questions, with the operands of each comparison exchanged.
  by_cases below : value.number.compare? low.number = some .lt
  case pos =>
    have within : high.number.compare? low.number ≠ some .lt := mt Number.compare?_lt_iff.mp ordered
    rw [if_pos below, better_of_beats (Number.compare?_lt_iff.mp below), better_of_not_beats within]
  case neg =>
    have stays : better .gt value low = value := better_of_not_beats (mt Number.compare?_lt_iff.mpr below)
    rw [if_neg below]
    by_cases above : value.number.compare? high.number = some .gt
    case pos => rw [if_pos above, stays, better_of_beats (Number.compare?_lt_iff.mpr above)]
    case neg =>
      rw [if_neg above]
      exact (better_of_within below above).symm

end Operator

namespace Value.AnyNum

variable {v best operand : Value}

theorem better (num : best.AnyNum) (num' : operand.AnyNum) (wanted : Ordering) :
    (better wanted best operand).AnyNum := by
  rcases better_eq_or wanted best operand with same | same
  · exact same.symm ▸ num'
  · exact same.symm ▸ num

end Value.AnyNum

namespace Library

variable {lib : Library} {name : String} {low value high : Value}

/-- Called on any container, the operator leaves a complete copy of the value in it. -/
def Copies (lib : Library) (name : String) (operands : List Value) (v : Value) : Prop :=
  ∀ result, lib.call name result (.ofList operands) = ⟨.ok (), v, .empty⟩

theorem copies_fixed {arity : Nat} {apply : Vector Value arity → Action}
    (found : lib.find? name = some (.fixed arity apply)) (last : Vector Value arity) {v : Value}
    (runs : ∀ result, (apply last).run result = .ok () v) : lib.Copies name last.toList v := by
  intro result
  have reply := call_fixed found [] last result
  rwa [Program.status_of_ok (runs result), Program.final_of_ok (runs result)] at reply

/-- Of two operands the one pushed last is popped first. -/
theorem copies_better {wanted : Ordering} {best operand : Value}
    (found : lib.find? name = some (.variadic (extreme wanted))) (num : best.AnyNum) (num' : operand.AnyNum) :
    lib.Copies name [operand, best] (better wanted best operand) := by
  intro result
  have nums : ∀ v ∈ [best, operand], v.AnyNum :=
    List.forall_mem_cons.mpr ⟨num, List.forall_mem_singleton.mpr num'⟩
  exact call_extreme found nums result

/-- LIMIT chooses `chosen`, the value that MIN after MAX comes to over `between`. It is within the bounds, and
LIMIT does not change it again. -/
structure Clamps (lib : Library) (low value high between chosen : Value) : Prop where
  max : lib.Copies "MAX" [low, value] between
  min : lib.Copies "MIN" [high, between] chosen
  limit : lib.Copies "LIMIT" [low, value, high] chosen
  again : lib.Copies "LIMIT" [low, chosen, high] chosen
  not_less : chosen.number.compare? low.number ≠ some .lt
  not_greater : chosen.number.compare? high.number ≠ some .gt

theorem find?_limit (mode : PowerMode) (profile : LiteralProfile) :
    (standard mode profile).find? "LIMIT" =
      some (.ternary fun low value high => Operator.limit value low high) :=
  find?_standard profile (by simp [standardEntries])

theorem standard_clamps (mode : PowerMode) (profile : LiteralProfile) (num : low.AnyNum)
    (num' : value.AnyNum) (num'' : high.AnyNum) (ordered : low.number.compare? high.number ≠ some .gt) :
    ∃ between chosen, (standard mode profile).Clamps low value high between chosen := by
  have limits {value : Value} (num' : value.AnyNum) :
      (standard mode profile).Copies "LIMIT" [low, value, high] (better .lt (better .gt value low) high) :=
    copies_fixed (find?_limit mode profile) #v[low, value, high] (limit_run num num' num'' ordered)
  have between := num'.better num .gt
  -- The choice is within the bounds, so that MIN after MAX leaves it alone, and LIMIT with them.
  have within := better_within value ordered
  have again := limits (between.better num'' .lt)
  rw [better_of_within within.1 within.2] at again
  exact ⟨better .gt value low, better .lt (better .gt value low) high,
    copies_better (find?_max mode profile) num' num, copies_better (find?_min mode profile) between num'',
    limits num', again, within.1, within.2⟩

/-- A LINT that lies above both bounds, but not when it is compared with them as an LREAL. -/
theorem standard_clamps_rounded :
    let double := Value.ofNumber .lreal (.ofInt (2 ^ 53))
    let odd := Value.ofNumber .lint (.ofInt (2 ^ 53 + 1))
    double.number.compare? double.number ≠ some .gt ∧
      ∃ between chosen, (standard .power {}).Clamps double odd double between chosen := by
  intro double odd
  have num : double.AnyNum := .ofNumber rfl _
  have ordered : double.number.compare? double.number ≠ some .gt := by decide +kernel
  exact ⟨ordered, standard_clamps .power {} num (.ofNumber rfl _) num ordered⟩

end Library

end Plc
