import Plc.Conversion.Name
import Plc.Operator.BitString
import Plc.Operator.Numeric
import Plc.Operator.Relation
import Plc.Operator.Selection
import Plc.Operator.TimeSpan
import Plc.Proofs.Program
import Plc.Proofs.Value.Closed

/-!
# Operators settle

Every operator checks first and writes last. So it keeps each property of values that the writes
keep, and where it stops at a fault it leaves the result as it was. Which checks it makes, and what
number or text it writes, does not matter for either.

Main statements:

* one lemma `…_settles` for each operator on the result; operators that write in place need a
  property that the writes keep (`Stable`), operators that copy need it of their operands;
* `convert_settles` for conversions by value, which also copy values read from text.
-/

namespace Plc

open Program

/-- A guard on an operand is a question about its type. -/
theorem Value.WellFormed.require_iff {v : Value} (wf : v.WellFormed) {allowed : List Category} :
    v.require allowed = .ok () ↔ v.type.belongsAny allowed = true := by
  rw [← wf.belongsAny_eq]
  unfold require
  split <;> simp_all

namespace Value.Stable

variable {P : Value → Prop} (stable : Stable P)
include stable

/-! ## §1 How operators end -/

/-- Storing a number in a result made ready for its type. -/
theorem writes_widened (t : DataType) (n : Number) :
    Writes P (do modify (·.widenTo t); modify (·.setNumber n)) :=
  writes_bind (writes_modify fun v => stable.widenTo v t) fun _ =>
    writes_modify fun v => stable.setNumber v n

/-- Storing a number in a result turned to its type. -/
theorem writes_retyped (t : DataType) (n : Number) :
    Writes P (do modify (·.retype t); modify (·.setNumber n)) :=
  writes_bind (writes_modify fun v => stable.retype v t) fun _ =>
    writes_modify fun v => stable.setNumber v n

theorem writes_chars (model : Value) (cs : List Char) :
    Writes P (modify (·.setCharsLike model cs)) :=
  writes_modify fun v => stable.setText v _ _ _

theorem writes_duration (d : Duration) : Writes P (modify (·.setDuration d)) :=
  writes_modify fun v => stable.setDuration v d

end Value.Stable

namespace Operator

variable {P : Value → Prop}

section InPlace

variable (stable : Value.Stable P)
include stable

/-! ## §2 Numbers -/

theorem sub_settles (a b : Value) : Settles P (sub a b) :=
  settles_check fun _ _ => settles_check fun _ _ => (stable.writes_widened _ _).settles

theorem div_settles (a b : Value) : Settles P (div a b) := by
  refine settles_check fun _ _ => settles_check fun _ _ => settles_check fun _ _ => ?_
  refine Writes.settles (writes_bind (writes_modify fun v => stable.widenTo v _) fun _ => ?_)
  exact writes_get fun wide => writes_modify fun v => stable.setNumber v _

theorem mod_settles (a b : Value) : Settles P (mod a b) :=
  settles_check fun _ _ => settles_check fun _ _ => (stable.writes_widened _ _).settles

theorem expt_settles (mode : PowerMode) (a b : Value) : Settles P (expt mode a b) :=
  settles_check fun _ _ => settles_check fun _ _ => (stable.writes_widened _ _).settles

theorem abs_settles (a : Value) : Settles P (abs a) :=
  settles_check fun _ _ => (stable.writes_widened _ _).settles

theorem ofReal_settles (g : Double → Double) (a : Value) : Settles P (ofReal g a) :=
  settles_check fun _ _ => (stable.writes_widened _ _).settles

theorem atan2_settles (y x : Value) : Settles P (atan2 y x) :=
  settles_check fun _ _ => settles_check fun _ _ => (stable.writes_widened _ _).settles

/-! ## §3 Bit patterns and relations -/

theorem shift_settles (d : Direction) (a amount : Value) : Settles P (shift d a amount) :=
  settles_check fun _ _ => settles_check fun _ _ => (stable.writes_widened _ _).settles

theorem rotate_settles (d : Direction) (a amount : Value) : Settles P (rotate d a amount) :=
  settles_check fun _ _ => settles_check fun _ _ => (stable.writes_widened _ _).settles

theorem bitwise_settles (combine : Wide → Wide → Wide) (a b : Value) :
    Settles P (bitwise combine a b) :=
  settles_check fun _ _ => settles_check fun _ _ => (stable.writes_widened _ _).settles

theorem complement_settles (a : Value) : Settles P (complement a) :=
  settles_check fun _ _ => (stable.writes_widened _ _).settles

theorem relate_settles (relation : Relation) (a b : Value) : Settles P (relate relation a b) :=
  settles_check fun _ _ => settles_check fun _ _ => (stable.writes_retyped _ _).settles

/-! ## §4 Strings and durations -/

theorem len_settles (s : Value) : Settles P (len s) :=
  settles_check fun _ _ => (stable.writes_retyped _ _).settles

theorem left_settles (s n : Value) : Settles P (left s n) :=
  settles_check fun _ _ => settles_check fun _ _ => (stable.writes_chars _ _).settles

theorem right_settles (s n : Value) : Settles P (right s n) :=
  settles_check fun _ _ => settles_check fun _ _ => (stable.writes_chars _ _).settles

theorem mid_settles (s count position : Value) : Settles P (mid s count position) := by
  refine settles_check fun _ _ => settles_check fun _ _ => settles_check fun _ _ => ?_
  exact settles_check fun start _ => (stable.writes_chars _ _).settles

theorem insert_settles (s text position : Value) : Settles P (insert s text position) := by
  refine settles_check fun _ _ => settles_check fun _ _ => settles_check fun _ _ => ?_
  exact settles_check fun _ _ => (stable.writes_chars _ _).settles

theorem delete_settles (s count position : Value) : Settles P (delete s count position) := by
  refine settles_check fun _ _ => settles_check fun _ _ => settles_check fun _ _ => ?_
  exact settles_check fun start _ => (stable.writes_chars _ _).settles

theorem replace_settles (s text count position : Value) :
    Settles P (replace s text count position) := by
  refine settles_check fun _ _ => settles_check fun _ _ => settles_check fun _ _ => ?_
  refine settles_check fun _ _ => ?_
  exact settles_check fun start _ => (stable.writes_chars _ _).settles

theorem find_settles (s text : Value) : Settles P (find s text) :=
  settles_check fun _ _ => settles_check fun _ _ => (stable.writes_retyped _ _).settles

theorem addTime_settles (a b : Value) : Settles P (addTime a b) :=
  settles_check fun _ _ => settles_check fun _ _ => (stable.writes_duration _).settles

theorem subTime_settles (a b : Value) : Settles P (subTime a b) :=
  settles_check fun _ _ => settles_check fun _ _ => (stable.writes_duration _).settles

theorem mulTime_settles (t factor : Value) : Settles P (mulTime t factor) :=
  settles_check fun _ _ => settles_check fun _ _ => (stable.writes_duration _).settles

theorem divTime_settles (t divisor : Value) : Settles P (divTime t divisor) := by
  refine settles_check fun _ _ => settles_check fun _ _ => settles_check fun _ _ => ?_
  exact (stable.writes_duration _).settles

/-! ## §5 Conversions in place -/

theorem truncate_settles (target : DataType) (a : Value) : Settles P (truncate target a) :=
  settles_check fun _ _ => settles_check fun _ _ => (stable.writes_retyped _ _).settles

theorem toBcd_settles (target : DataType) (a : Value) : Settles P (toBcd target a) := by
  refine settles_check fun _ _ => settles_check fun digits _ => settles_check fun n _ => ?_
  exact settles_check fun code _ => (stable.writes_retyped _ _).settles

theorem ofBcd_settles (target : DataType) (a : Value) : Settles P (ofBcd target a) := by
  refine settles_check fun digits _ => settles_check fun _ _ => settles_check fun n _ => ?_
  exact (stable.writes_retyped _ _).settles

end InPlace

/-! ## §6 Operators that copy -/

theorem move_settles {source : Value} (holds : P source) : Settles P (move source) :=
  (writes_set holds).settles

theorem sel_settles (selector : Value) {ifFalse ifTrue : Value}
    (first : P ifFalse) (second : P ifTrue) : Settles P (sel selector ifFalse ifTrue) := by
  refine settles_check fun _ _ => (writes_set ?_).settles
  split
  · exact second
  · exact first

theorem limit_settles {value low high : Value} (middle : P value) (least : P low)
    (greatest : P high) : Settles P (limit value low high) := by
  refine settles_check fun _ _ => settles_check fun _ _ => settles_check fun _ _ => ?_
  refine (writes_set ?_).settles
  split
  · exact least
  · split
    · exact greatest
    · exact middle

/-- The better of two operands is one of them. -/
theorem better_keeps (wanted : Ordering) {best operand : Value} (first : P best)
    (second : P operand) : P (better wanted best operand) := by
  unfold better
  split
  · exact second
  · exact first

/-- A conversion by value makes the result a copy of what it converts to. -/
theorem convert_settles {profile : LiteralProfile} {target : DataType} {a : Value}
    (holds : ∀ v, converted profile target a = .ok v → P v) :
    Settles P (convert profile target a) :=
  settles_check fun _ _ => settles_check fun _ _ => settles_check fun v found =>
    (writes_set (holds v found)).settles

end Operator

end Plc
