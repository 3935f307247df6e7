import Plc.Operator.TimeSpan
import Plc.Proofs.Value.Word

/-!
# Values that hold a duration

As a number, TIME is a count of milliseconds: an integer where they are whole. An integer that is stored
in it is reduced to 64 bits first and then scaled to nanoseconds, where it is held at the limits of a
duration. Either of the two can change the number, the one by wrapping and the other by saturating.

Main statements:

* `Layout.timeToNumber_of_whole`, `Layout.numberToTime_ofInt`: the number out of TIME and into it.
* `Duration.ofMillis_bmod_iff`: when the reduction to 64 bits goes unnoticed.
* `Value.Lasts.setNumber`, `Value.lasts_setDuration`: what writing makes of a TIME.
-/

namespace Plc

/-! ## §1 Whole milliseconds -/

namespace Duration

/-- The duration is a whole number of milliseconds. -/
def Whole (d : Duration) : Prop := Layout.million ∣ d.nanos

instance (d : Duration) : Decidable d.Whole :=
  inferInstanceAs (Decidable (Layout.million ∣ d.nanos))

variable {d e : Duration}

theorem Whole.nanos_eq (whole : d.Whole) : d.nanos = d.millis * 1000000 :=
  (Int.tdiv_mul_cancel whole).symm

theorem least_le_millis (d : Duration) : -9223372036854 ≤ d.millis :=
  Int.tdiv_le_tdiv (by decide) d.least_le

theorem millis_le_greatest (d : Duration) : d.millis ≤ 9223372036854 :=
  Int.tdiv_le_tdiv (by decide) (Int.le_sub_one_of_lt d.lt_limit)

theorem Whole.ofMillis_add (whole : d.Whole) (whole' : e.Whole) :
    ofMillis (d.millis + e.millis) = d + e := by
  have nanos : (d.millis + e.millis) * 1000000 = d.nanos + e.nanos := by
    rw [whole.nanos_eq, whole'.nanos_eq, Int.add_mul]
  exact congrArg saturate nanos

theorem Whole.ofMillis_sub (whole : d.Whole) (whole' : e.Whole) :
    ofMillis (d.millis - e.millis) = d - e := by
  have nanos : (d.millis - e.millis) * 1000000 = d.nanos - e.nanos := by
    rw [whole.nanos_eq, whole'.nanos_eq, Int.sub_mul]
  exact congrArg saturate nanos

theorem Whole.ofMillis_mul (whole : d.Whole) (k : Int) :
    ofMillis (d.millis * k) = saturate (d.nanos * k) := by
  have nanos : d.millis * k * 1000000 = d.nanos * k := by
    rw [whole.nanos_eq, Int.mul_right_comm]
  exact congrArg saturate nanos

theorem bmod_of_fits {n : Int} (least : -2 ^ 63 ≤ n) (limit : n < 2 ^ 63) :
    n.bmod (2 ^ 64) = n := Int.bmod_eq_of_le (by omega) (by omega)

/-- Reduced to 64 bits, a number of milliseconds still gives the duration that it would give as it is:
if it has 64 bits, or if what is left of it is beyond the limit on its own side of zero. -/
theorem ofMillis_bmod_iff (n : Int) :
    ofMillis (n.bmod (2 ^ 64)) = ofMillis n ↔
      (-2 ^ 63 ≤ n ∧ n < 2 ^ 63) ∨
        (2 ^ 63 ≤ n ∧ 9223372036855 ≤ n.bmod (2 ^ 64)) ∨
        (n < -2 ^ 63 ∧ n.bmod (2 ^ 64) ≤ -9223372036855) := by
  have compared : ofMillis (n.bmod (2 ^ 64)) = ofMillis n ↔
      max (-2 ^ 63) (min (2 ^ 63 - 1) (n.bmod (2 ^ 64) * 1000000)) =
        max (-2 ^ 63) (min (2 ^ 63 - 1) (n * 1000000)) := by
    rw [← nanos_ofMillis, ← nanos_ofMillis]
    exact ⟨congrArg nanos, Duration.ext⟩
  rw [compared]
  by_cases fits : -2 ^ 63 ≤ n ∧ n < 2 ^ 63
  case pos =>
    rw [bmod_of_fits fits.1 fits.2]
    exact iff_of_true rfl (Or.inl fits)
  case neg =>
    -- Beyond 64 bits the duration is a limit, and only the reduced number is left to be asked about.
    omega

end Duration

/-! ## §2 Numbers out and in -/

namespace Layout

theorem timeToNumber_of_whole {d : Duration} (whole : d.Whole) : timeToNumber d = .ofInt d.millis :=
  if_pos (Int.tmod_eq_zero_of_dvd whole)

theorem numberToTime_ofInt (n : Int) : numberToTime (.ofInt n) = .ofMillis (n.bmod (2 ^ 64)) := by
  show Duration.ofMillis ((BitVec.ofInt 128 n).setWidth 64).toInt = _
  rw [setWidth_ofInt (by decide), BitVec.toInt_ofInt]

theorem numberToTime_of_fits {n : Int} (least : -2 ^ 63 ≤ n) (limit : n < 2 ^ 63) :
    numberToTime (.ofInt n) = .ofMillis n := by
  rw [numberToTime_ofInt, Duration.bmod_of_fits least limit]

end Layout

namespace Duration

variable {d e : Duration}

/-- Two durations have few milliseconds next to what 64 bits can hold, so their sum is not wrapped. -/
theorem Whole.numberToTime_add (whole : d.Whole) (whole' : e.Whole) :
    Layout.numberToTime (.ofInt (d.millis + e.millis)) = d + e := by
  have least := d.least_le_millis
  have greatest := d.millis_le_greatest
  have least' := e.least_le_millis
  have greatest' := e.millis_le_greatest
  rw [Layout.numberToTime_of_fits (by omega) (by omega)]
  exact whole.ofMillis_add whole'

theorem Whole.numberToTime_sub (whole : d.Whole) (whole' : e.Whole) :
    Layout.numberToTime (.ofInt (d.millis - e.millis)) = d - e := by
  have least := d.least_le_millis
  have greatest := d.millis_le_greatest
  have least' := e.least_le_millis
  have greatest' := e.millis_le_greatest
  rw [Layout.numberToTime_of_fits (by omega) (by omega)]
  exact whole.ofMillis_sub whole'

end Duration

/-! ## §3 Values of type TIME -/

namespace Value

/-- A well-formed TIME that holds the duration. -/
structure Lasts (v : Value) (d : Duration) : Prop where
  wf : v.WellFormed
  type : v.type = .time
  payload : v.payload = ⟨.time, d⟩

variable {v : Value} {d : Duration}

theorem lasts_setDuration (wf : v.WellFormed) (d : Duration) : (v.setDuration d).Lasts d :=
  ⟨wf.setDuration d, type_retype v .time, rfl⟩

theorem lasts_ofDuration (d : Duration) : (ofDuration d).Lasts d := by
  rw [← setDuration_zero]
  exact lasts_setDuration (wellFormed_zero .time) d

theorem Unflagged.setDuration (plain : v.Unflagged) (d : Duration) : (v.setDuration d).Unflagged :=
  ⟨(plain.retype .time).attributes, (plain.retype .time).state⟩

theorem Unflagged.setNumber (plain : v.Unflagged) (n : Number) : (v.setNumber n).Unflagged :=
  ⟨plain.attributes, plain.state⟩

/-- A content of no numbers gives way to the fresh one of TIME. -/
theorem lasts_retype_null (wf : v.WellFormed) (null : v.type = .null) :
    (v.retype .time).Lasts .zero := by
  have shape : v.payload.shape = .null := by
    rw [wf.shape, null]
    rfl
  have carries : v.carriesNumber = false := by
    unfold carriesNumber
    rw [wf.belongsAny_eq, null]
    rfl
  have other : DataType.time ≠ v.type := by
    rw [null]
    decide
  refine ⟨wf.retype .time, type_retype v .time, ?_⟩
  unfold retype
  rw [if_neg other, carries]
  rfl

theorem widenTo_of_null (wf : v.WellFormed) (null : v.type = .null) (t : DataType) :
    v.widenTo t = v.retype t := by
  have layout : v.payload.shape.layout.isNumeric = false := by
    rw [wf.shape, null]
    rfl
  have none : v.number?.isNone = true := by
    rw [← Option.not_isSome]
    show (!(v.payload.shape.layout.number? v.payload.data).isSome) = true
    rw [Layout.isSome_number?, layout]
    rfl
  exact if_pos none

namespace Lasts

theorem duration?_eq (lasts : v.Lasts d) : v.duration? = some d := by
  unfold Value.duration?
  rw [lasts.payload]
  rfl

theorem unique {e : Duration} (lasts : v.Lasts d) (lasts' : v.Lasts e) : d = e :=
  Option.some.inj (lasts.duration?_eq.symm.trans lasts'.duration?_eq)

theorem number_eq_timeToNumber (lasts : v.Lasts d) : v.number = Layout.timeToNumber d := by
  have found : v.number? = some (Layout.timeToNumber d) := by
    unfold number?
    rw [lasts.payload]
    rfl
  unfold number
  rw [found]
  rfl

theorem number_eq (lasts : v.Lasts d) (whole : d.Whole) : v.number = .ofInt d.millis := by
  rw [lasts.number_eq_timeToNumber, Layout.timeToNumber_of_whole whole]

theorem setNumber (lasts : v.Lasts d) (n : Number) :
    (v.setNumber n).Lasts (Layout.numberToTime n) := by
  refine ⟨lasts.wf.setNumber n, lasts.type, ?_⟩
  show v.payload.store n = _
  rw [lasts.payload]
  rfl

/-- But for the flags, a TIME is its duration. -/
theorem eq_ofDuration (lasts : v.Lasts d) (plain : v.Unflagged) : v = ofDuration d := by
  have fresh := lasts_ofDuration d
  refine Alike.eq ⟨lasts.type, ?_, lasts.payload⟩ plain ⟨rfl, rfl⟩
  rw [lasts.wf.categories, fresh.wf.categories, lasts.type, fresh.type]

theorem belongsAny (lasts : v.Lasts d) : v.belongsAny [.magnitude] = true := by
  rw [lasts.wf.belongsAny_eq, lasts.type]
  rfl

theorem requireDuration_eq (lasts : v.Lasts d) : v.requireDuration = .ok d := by
  have checked : v.requireType .time = .ok () := if_pos lasts.type
  unfold requireDuration
  rw [checked, lasts.duration?_eq]
  rfl

end Lasts

end Value

end Plc
