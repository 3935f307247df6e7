import Plc.Proofs.Conversion.RoundTrip

/-!
# Conversion by value to words

Three tables of types decide what a conversion makes of an operand: the categories that it demands, the
layouts that have a numeric view, and the types whose number is carried over when the type changes. An
operand that is taken and is seen as an integer is wrapped to its new type, unless it is a date: dates
have a numeric view but do not carry it, and what is made of them is zero.

Main statements:

* `Value.carriesNumber_of_required`: the tables agree on all operands but dates.
* `Value.holds_retype_of_required`: the number after a change of type.
* `Operator.convert_wraps`: what a conversion to a word gives.
* `Operator.convert_drops_date`: a date is not kept.
-/

namespace Plc

/-! ## §1 Which number is carried over -/

namespace DataType

/-- Integers and bit strings of more than one bit. -/
def Integral (t : DataType) : Prop := t.belongs .int = true ∨ t.belongs .bit = true ∧ t.isBoolean = false

/-- What is left of a number that a value of the type shows when the value is turned to another type. -/
def carried (t : DataType) (n : Int) : Int := if t.belongs .date then 0 else n

theorem Integral.isWord {t : DataType} (integral : t.Integral) :
    t.IsWord ∧ t.isTarget = true ∧ t.isCharString = false ∧ t.belongs .date = false := by
  have each : ∀ t ∈ all, (t.belongs .int = true ∨ t.belongs .bit = true ∧ t.isBoolean = false) →
      t.layout = .word t.isSigned t.bitWidth ∧ t.isTarget = true ∧ t.isCharString = false ∧
        t.belongs .date = false := by decide
  exact each t t.mem_all integral

end DataType

namespace Value

variable {v : Value}

/-- A value with a numeric view is no string. -/
theorem WellFormed.plain_of_number? (wf : v.WellFormed) {n : Number} (found : v.number? = some n) :
    v.type.isCharString = false ∧ v.text? = none := by
  have plain : v.payload.shape.layout.text? v.payload.data = none := Layout.text?_of_number? found
  refine ⟨?_, plain⟩
  by_contra string
  have shape : v.payload.shape = .string := by
    rw [wf.shape]
    cases type : v.type <;> first | rfl | exact absurd (type ▸ rfl) string
  have numeric : (some n).isSome = v.payload.shape.layout.isNumeric :=
    (congrArg Option.isSome found).symm.trans (Layout.isSome_number? _ v.payload.data)
  rw [shape] at numeric
  cases numeric

/-- Of the operands that conversions take, only dates have a numeric view that is not carried over. -/
theorem carriesNumber_of_required (wf : v.WellFormed) (required : v.require [.elementary, .char] = .ok ())
    {n : Number} (found : v.number? = some n) : v.carriesNumber = !v.type.belongs .date := by
  have plain := (wf.plain_of_number? found).1
  have taken := wf.require_iff.mp required
  -- The tables are compared type by type.
  have each : ∀ t ∈ DataType.all, t.belongsAny [.elementary, .char] = true → t.isCharString = false →
      (t.isBoolean || t.belongsAny [.num, .bit, .magnitude, .char]) = !t.belongs .date := by decide
  unfold carriesNumber
  rw [wf.belongsAny_eq]
  exact each v.type v.type.mem_all taken plain

/-! ## §2 The number after a change of type -/

theorem toInt_zero {t : DataType} (word : t.IsWord) : (zero t).toInt = t.wrap 0 := by
  cases t <;> first | (cases word; done) | decide

/-- A value that carried nothing over is fresh but for its flags. -/
theorem payload_retype_dropped {t : DataType} (other : t ≠ v.type) (drops : v.carriesNumber = false) :
    (v.retype t).payload = (zero t).payload := by
  unfold retype
  rw [if_neg other, drops]
  rfl

/-- A value that is taken and shows an integer is wrapped to the type of words that it is turned to. -/
theorem holds_retype_of_required (wf : v.WellFormed) (required : v.require [.elementary, .char] = .ok ())
    {n : Wide} (found : v.number? = some (.int n)) {t : DataType} (integral : t.Integral) :
    (v.retype t).Holds t (v.type.carried n.toInt) := by
  have shown : v.toInt = n.toInt := by
    unfold toInt number
    rw [found]
    rfl
  obtain ⟨word, _, _, notDate⟩ := integral.isWord
  have carries := carriesNumber_of_required wf required found
  refine ⟨wf.retype t, type_retype v t, ?_⟩
  by_cases same : t = v.type
  case pos =>
    -- Nothing happens, and what the word shows is in its range already.
    have self : v.Word := ⟨wf, same ▸ word⟩
    have kept : v.type.carried n.toInt = n.toInt := if_neg (Bool.eq_false_iff.mp (same ▸ notDate))
    rw [kept, same, retype_self, self.wrap_toInt.symm, shown]
  case neg =>
    cases date : v.type.belongs .date with
    | true =>
      have dropped := payload_retype_dropped same (carries.trans (congrArg _ date))
      have zero : v.type.carried n.toInt = 0 := if_pos date
      rw [zero, toInt_of_payload dropped]
      exact toInt_zero word
    | false =>
      have payload := payload_retype same (carries.trans (congrArg _ date)) found
      have kept : v.type.carried n.toInt = n.toInt := if_neg (Bool.eq_false_iff.mp date)
      have whole : Number.int n = .ofInt n.toInt := congrArg Number.int BitVec.ofInt_toInt.symm
      rw [kept, toInt_of_payload payload, whole]
      exact (Word.holds_ofNumber word n.toInt).toInt

end Value

/-! ## §3 Conversion -/

namespace Operator

/-- Whatever is taken and seen as an integer is wrapped to the target, a date as if it were zero. -/
theorem convert_wraps {v : Value} (wf : v.WellFormed) (required : v.require [.elementary, .char] = .ok ())
    {n : Wide} (found : v.number? = some (.int n)) {target : DataType} (integral : target.Integral)
    (profile : LiteralProfile) (result : Value) :
    ∃ w, (convert profile target v).run result = .ok () w ∧ w.type = target ∧
      w.number? = some (.ofInt (target.wrap (v.type.carried n.toInt))) := by
  obtain ⟨word, isTarget, notString, _⟩ := integral.isWord
  have holds := Value.holds_retype_of_required wf required found integral
  have taken := wf.require_iff.mp required
  have made : converted profile target v = .ok (v.retype target) := by
    unfold converted
    rw [(wf.plain_of_number? found).2]
    exact if_neg (Bool.eq_false_iff.mp notString)
  refine ⟨_, run_convert wf taken isTarget made result, holds.type, ?_⟩
  rw [(holds.word word).number?_eq, holds.toInt]

/-- A duration of whole milliseconds, in a type too narrow for it. -/
theorem convert_wraps_time : ∃ w,
    (convert {} .usint (.ofDuration (.ofMillis 300))).run .null = .ok () w ∧ w.type = .usint ∧
      w.number? = some (.ofInt 44) := by
  have wf : (Value.ofDuration (.ofMillis 300)).WellFormed := Value.closed_wellFormed.ofDuration _
  have integral : DataType.Integral .usint := Or.inl rfl
  exact convert_wraps wf rfl (n := 300) (by decide) integral {} .null

/-- The days of a date are not its number any more in another type. -/
theorem convert_drops_date : ¬∀ (v : Value) (n : Wide) (target : DataType) (result : Value),
    v.WellFormed → v.type.isCharString = false → v.require [.elementary, .char] = .ok () →
      v.number? = some (.int n) → target.Integral →
      ∃ w, (convert {} target v).run result = .ok () w ∧ w.type = target ∧
        w.number? = some (.ofInt (target.wrap n.toInt)) := by
  intro keeps
  have wf := (Value.wellFormed_zero .date).setNumber (.ofInt 5)
  obtain ⟨w, run, _, number⟩ := keeps (.ofNumber .date (.ofInt 5)) 5 .lint .null wf rfl rfl (by decide)
    (Or.inl rfl)
  have zero : (convert {} .lint (.ofNumber .date (.ofInt 5))).run .null = .ok () (.zero .lint) := rfl
  obtain rfl : Value.zero .lint = w := by
    have same := zero.symm.trans run
    injection same
  exact absurd number (by decide)

end Operator

end Plc
