import Plc.Proofs.Value.CharString
import Plc.Proofs.Value.Integral
import Plc.Proofs.Value.Order

/-!
# Comparisons

The six relations take elementary values of any types and answer with a BOOL, whatever the container of the
answer held before. The answer depends on the order of the two values alone, so that what holds of the
order holds of the answers.

LT is a strict partial order on all elementary values, with GT as its converse: strings, numbers, dates and
not-a-number may be mixed. EQ is reflexive on all but not-a-number, and symmetric. It is no equivalence. An
LREAL is equal to every integer that is rounded to it, and a number that is zero is equal to every string;
these are the only ways in which two values can be equal to a third one and not to each other.

Main statements:

* `Operator.relate_run`: a relation answers by the order of its operands.
* `Library.answers_relation_iff`: the same told of calls.
* `Library.standard_precedence`: LT is a strict partial order.
* `Library.standard_equality`: what EQ has of an equivalence.
-/

namespace Plc

open Value

/-- A well-formed value of an elementary type. -/
structure Value.AnyElementary (v : Value) : Prop where
  wf : v.WellFormed
  elementary : v.type.belongs .elementary = true

namespace Value.AnyElementary

variable {v : Value}

theorem require_eq (elementary : v.AnyElementary) : v.require [.elementary] = .ok () :=
  elementary.wf.require_eq elementary.elementary

theorem ofNumber {t : DataType} (elementary : t.belongs .elementary = true) (n : Number) :
    (ofNumber t n).AnyElementary := ⟨(wellFormed_zero t).setNumber n, elementary⟩

theorem ofText (content : String) (wide hashed : Bool) : (ofText content wide hashed).AnyElementary := by
  refine ⟨closed_wellFormed.ofText content wide hashed, ?_⟩
  cases wide <;> rfl

end Value.AnyElementary

/-! ## §1 Answers -/

namespace Operator

variable {a b result : Value}

theorem relate_run (relation : Relation) (first : a.AnyElementary) (second : b.AnyElementary)
    (wf : result.WellFormed) :
    ∃ u, (relate relation a b).run result = .ok () u ∧ u.OfType .bool ∧
      u.isTrue = relation.holds (a.order? b) := by
  unfold relate
  rw [Program.run_check_of_ok first.require_eq, Program.run_check_of_ok second.require_eq]
  exact ⟨_, rfl, ⟨wf.flag_retype.wf.setNumber _, type_retype result .bool⟩, wf.flag_retype.isTrue_setBool _⟩

/-- The name under which the library has the relation. -/
def Relation.name : Relation → String
  | gt => "GT"
  | ge => "GE"
  | eq => "EQ"
  | le => "LE"
  | lt => "LT"
  | ne => "NE"

end Operator

/-! ## §2 Calls -/

namespace Library

open Operator (Relation)

variable {lib : Library} {name : String} {a b c : Value} {on on' : Bool}

/-- Called on the two operands, the operator leaves a BOOL of this truth value, in any container. -/
def Answers (lib : Library) (name : String) (a b : Value) (on : Bool) : Prop :=
  lib.Fills name [a, b] fun u => u.OfType .bool ∧ u.isTrue = on

/-- There is one answer only. -/
theorem Answers.unique (first : lib.Answers name a b on) (second : lib.Answers name a b on') : on = on' := by
  obtain ⟨u, reply, _, truth⟩ := first .null (wellFormed_zero .null)
  obtain ⟨u', reply', _, truth'⟩ := second .null (wellFormed_zero .null)
  rw [reply] at reply'
  cases reply'
  exact truth.symm.trans truth'

theorem answers_relation (relation : Relation) (found : lib.find? name = some (.binary (Operator.relate relation)))
    (first : a.AnyElementary) (second : b.AnyElementary) :
    lib.Answers name a b (relation.holds (a.order? b)) :=
  fills_fixed found #v[a, b] fun _ wf => Operator.relate_run relation first second wf

theorem find?_relation (mode : PowerMode) (profile : LiteralProfile) (relation : Relation) :
    (standard mode profile).find? relation.name = some (.binary (Operator.relate relation)) := by
  cases relation <;> exact find?_standard profile (by simp [standardEntries, Relation.name])

/-- The order of the operands decides. -/
theorem answers_relation_iff (mode : PowerMode) (profile : LiteralProfile) (relation : Relation)
    (first : a.AnyElementary) (second : b.AnyElementary) :
    (standard mode profile).Answers relation.name a b on ↔ relation.holds (a.order? b) = on := by
  have answers := answers_relation relation (find?_relation mode profile relation) first second
  constructor
  · exact answers.unique
  · rintro rfl
    exact answers

end Library

/-! ## §3 Less -/

namespace Library

open Operator (Relation)

variable {a b c : Value}

/-- LT is a strict partial order on the three values, and GT is its converse. -/
structure Precedence (lib : Library) (a b c : Value) : Prop where
  answers : ∃ on, lib.Answers "LT" a b on
  irrefl : lib.Answers "LT" a a false
  asymm : lib.Answers "LT" a b true → lib.Answers "LT" b a false
  converse : ∀ on, lib.Answers "LT" a b on ↔ lib.Answers "GT" b a on
  trans : lib.Answers "LT" a b true → lib.Answers "LT" b c true → lib.Answers "LT" a c true

theorem standard_precedence (mode : PowerMode) (profile : LiteralProfile) (first : a.AnyElementary)
    (second : b.AnyElementary) (third : c.AnyElementary) : (standard mode profile).Precedence a b c := by
  have lt {a b : Value} (first : a.AnyElementary) (second : b.AnyElementary) (on : Bool) :
      (standard mode profile).Answers "LT" a b on ↔ Relation.lt.holds (a.order? b) = on :=
    answers_relation_iff mode profile .lt first second
  constructor
  case answers => exact ⟨_, (lt first second _).mpr rfl⟩
  case irrefl =>
    rw [lt first first]
    exact decide_eq_false (order?_self_ne (by decide) a)
  case asymm =>
    rw [lt first second, lt second first]
    intro less
    apply decide_eq_false
    intro less'
    -- Each less than the other, they would be less than themselves.
    have round : a.order? a = some .lt := order?_trans (by decide) (of_decide_eq_true less) less'
    exact order?_self_ne (by decide) a round
  case converse =>
    intro on
    have same : Relation.lt.holds (a.order? b) = Relation.gt.holds (b.order? a) :=
      decide_eq_decide.mpr order?_lt_iff
    rw [lt first second, same]
    exact (answers_relation_iff mode profile .gt second first).symm
  case trans =>
    rw [lt first second, lt second third, lt first third]
    intro less less'
    exact decide_eq_true (order?_trans (by decide) (of_decide_eq_true less) (of_decide_eq_true less'))

/-- Two strings of different types, in the order of their texts, and a number beside which they are zero. -/
theorem standard_precedence_mixed :
    let lib := standard .power {}
    let off := Value.ofText "off" false true
    let on := Value.ofText "on" true false
    let one := Value.ofNumber .lreal (.ofInt 1)
    lib.Precedence off on one ∧ lib.Answers "LT" off on true ∧ lib.Answers "LT" on one true := by
  intro lib off on one
  have first : off.AnyElementary := .ofText _ _ _
  have second : on.AnyElementary := .ofText _ _ _
  have third : one.AnyElementary := .ofNumber (by decide) _
  have less {a b : Value} (first : a.AnyElementary) (second : b.AnyElementary) (order : a.order? b = some .lt) :
      lib.Answers "LT" a b true :=
    (answers_relation_iff .power {} .lt first second).mpr (decide_eq_true order)
  exact ⟨standard_precedence .power {} first second third, less first second (by decide +kernel),
    less second third (by decide +kernel)⟩

end Library

/-! ## §4 Equal -/

namespace Library

open Operator (Relation)

variable {a b c : Value}

/-- EQ is reflexive and symmetric, and transitive as long as the value between shows the difference of the
two others. Where it does not, EQ tells them apart. -/
structure Equality (lib : Library) (a b c : Value) : Prop where
  answers : ∃ on, lib.Answers "EQ" a b on
  refl : lib.Answers "EQ" a a true
  symm : lib.Answers "EQ" a b true → lib.Answers "EQ" b a true
  trans_iff : lib.Answers "EQ" a b true → lib.Answers "EQ" b c true →
    (lib.Answers "EQ" a c true ↔ ¬b.Blurs a c)
  differ_iff : lib.Answers "EQ" a b true → lib.Answers "EQ" b c true →
    (lib.Answers "EQ" a c false ↔ b.Blurs a c)

theorem standard_equality (mode : PowerMode) (profile : LiteralProfile) (first : a.AnyElementary)
    (second : b.AnyElementary) (third : c.AnyElementary) (number : a.toDouble.isNaN = false) :
    (standard mode profile).Equality a b c := by
  have eq {a b : Value} (first : a.AnyElementary) (second : b.AnyElementary) :
      (standard mode profile).Answers "EQ" a b true ↔ a.order? b = some .eq :=
    (answers_relation_iff mode profile .eq first second).trans decide_eq_true_iff
  have ne : (standard mode profile).Answers "EQ" a c false ↔ ¬a.order? c = some .eq :=
    (answers_relation_iff mode profile .eq first third).trans decide_eq_false_iff_not
  constructor
  case answers => exact ⟨_, answers_relation .eq (find?_relation mode profile .eq) first second⟩
  case refl => exact (eq first first).mpr (order?_self number)
  case symm =>
    rw [eq first second, eq second first]
    exact order?_symm
  case trans_iff =>
    rw [eq first second, eq second third, eq first third]
    exact order?_eq_iff_not_blurs
  case differ_iff =>
    rw [eq first second, eq second third, ne]
    intro same same'
    exact (not_congr (order?_eq_iff_not_blurs same same')).trans not_not

/-- Where the doubles become sparse, one of them is between two integers. -/
theorem standard_equality_blurred :
    let lib := standard .power {}
    let odd := Value.ofNumber .lint (.ofInt (2 ^ 53 + 1))
    let double := Value.ofNumber .lreal (.ofInt (2 ^ 53))
    let even := Value.ofNumber .lint (.ofInt (2 ^ 53))
    odd.toDouble.isNaN = false ∧ lib.Equality odd double even ∧ double.Blurs odd even := by
  intro lib odd double even
  have number : odd.toDouble.isNaN = false := by decide +kernel
  have first : odd.AnyElementary := .ofNumber (by decide) _
  have second : double.AnyElementary := .ofNumber (by decide) _
  have third : even.AnyElementary := .ofNumber (by decide) _
  have differ : (2 ^ 53 + 1 : Int) ≠ 2 ^ 53 := by decide
  exact ⟨number, standard_equality .power {} first second third number,
    .integers (by decide +kernel) (by decide +kernel) differ (by decide +kernel)⟩

/-- Two integers that are equal to one double, and two strings that are equal to one integer. -/
theorem standard_equality_not_transitive :
    let lib := standard .power {}
    let odd := Value.ofNumber .lint (.ofInt (2 ^ 53 + 1))
    let double := Value.ofNumber .lreal (.ofInt (2 ^ 53))
    let even := Value.ofNumber .lint (.ofInt (2 ^ 53))
    let on := Value.ofText "on" false false
    let zero := Value.ofNumber .int (.ofInt 0)
    let off := Value.ofText "off" false false
    (∀ v ∈ [odd, double, even, on, zero, off], v.AnyElementary ∧ v.toDouble.isNaN = false) ∧
      (lib.Answers "EQ" odd double true ∧ lib.Answers "EQ" double even true ∧ lib.Answers "EQ" odd even false) ∧
      lib.Answers "EQ" on zero true ∧ lib.Answers "EQ" zero off true ∧ lib.Answers "EQ" on off false := by
  intro lib odd double even on zero off
  have admitted : ∀ v ∈ [odd, double, even, on, zero, off], v.AnyElementary ∧ v.toDouble.isNaN = false := by
    have elementary {t : DataType} (n : Number) (member : t.belongs .elementary = true) :
        (Value.ofNumber t n).AnyElementary := .ofNumber member n
    have text (content : String) : (Value.ofText content false false).AnyElementary := .ofText _ _ _
    simp only [List.forall_mem_cons]
    exact ⟨⟨elementary _ (by decide), by decide +kernel⟩, ⟨elementary _ (by decide), by decide +kernel⟩,
      ⟨elementary _ (by decide), by decide +kernel⟩, ⟨text _, by decide +kernel⟩,
      ⟨elementary _ (by decide), by decide +kernel⟩, ⟨text _, by decide +kernel⟩, List.forall_mem_nil _⟩
  have answer {a b : Value} (mem : a ∈ [odd, double, even, on, zero, off])
      (mem' : b ∈ [odd, double, even, on, zero, off]) (answer : Bool)
      (order : Relation.eq.holds (a.order? b) = answer) : lib.Answers "EQ" a b answer :=
    (answers_relation_iff .power {} .eq (admitted a mem).1 (admitted b mem').1).mpr order
  refine ⟨admitted, ⟨?_, ?_, ?_⟩, ?_, ?_, ?_⟩ <;>
    exact answer (by simp) (by simp) _ (by decide +kernel)

end Library

end Plc
