import Plc.Proofs.Binary.Shortest
import Plc.Proofs.Conversion.RoundTrip

/-!
# LREAL values in text

The text of a finite LREAL value has a point exactly if the value is no whole number. With a point it is
read as an LREAL value, the one that it was written from. Without one it is read as an integer, of the type
that the profile gives for integers, and only the whole numbers of that type come back.

Main statements:

* `Literal.parse_point`, `Literal.parse_whole`: how the two forms of text are read.
* `Operator.convert_fraction`, `Operator.convert_whole`: what becomes of the text of a value.
* `Operator.convert_real_back`: which values come back under the profile of INT and LREAL.
* `Operator.convert_real_lost`: one that does not.
-/

namespace Plc

/-! ## §1 The two forms of text -/

namespace Literal

/-- Text of digits, a point and a sign is read as a real. -/
theorem parse_point {cs : List Char} (characters : Consists ['-', '.'] cs) (point : '.' ∈ cs) {x : Double}
    (read : Binary.ofChars? cs = some x) {profile : LiteralProfile} {t : DataType}
    (target : numericType? none profile.realType = some t) :
    parse cs profile = .ok (.ofNumber t (.real x)) := by
  have seen : Text.upper (Text.trim cs) = cs := by
    rw [Text.trim_of_notBlank (characters.notBlank (by decide)), characters.upper (by decide)]
  have plain : plainBody cs = cs := by
    rw [characters.plainBody (by decide),
      dropUnderscores_of_notMem (characters.notMem (by decide) (by decide))]
  have kind : plainKind cs = .real := by
    have noDigit : ¬(cs = ['0'] ∨ cs = ['1']) := by
      rintro (rfl | rfl) <;> simp at point
    have noExponent : 'E' ∉ cs := characters.notMem (by decide) (by decide)
    unfold plainKind
    rw [if_neg noDigit, if_neg noExponent, if_pos point]
  have absent : '#' ∉ cs := characters.notMem (by decide) (by decide)
  refine parse_of_value? (classify_plain seen (List.ne_nil_of_mem point) absent) ?_
  rw [plain, kind]
  simp [value?, real?, target, read]

/-- The digits of a whole number under a sign, which even a zero may have. -/
def wholeChars (negative : Bool) (n : Nat) : List Char := Binary.sign negative ++ Nat.toDigits 10 n

variable (negative : Bool) (n : Nat)

theorem decimal_wholeChars : Decimal (wholeChars negative n) := by
  have digits : Decimal (Nat.toDigits 10 n) := fun c mem => Or.inl (Numeral.isDigit_toDigits n c mem)
  cases negative with
  | true => exact digits.cons (c := '-') (by decide)
  | false => exact digits

theorem integer?_wholeChars :
    Numeral.integer? (wholeChars negative n) = some (Binary.signed negative n) := by
  have digits := Numeral.isDigit_toDigits n
  have split := Binary.splitSign_sign negative fun c first => digits c (List.mem_of_head? first)
  unfold Numeral.integer? wholeChars
  simp only [split, Numeral.natural?_toDigits]
  rfl

theorem classify_wholeChars : classify (wholeChars negative n) =
    .ok ⟨plainKind (wholeChars negative n), none, wholeChars negative n⟩ := by
  have digits := @Nat.underscore_not_in_toDigits n
  refine classify_decimal (decimal_wholeChars negative n) ?_ ?_
  · cases negative <;> simp [wholeChars, Binary.sign, Nat.toDigits_ne_nil]
  · cases negative with
    | true => exact List.not_mem_cons_of_ne_of_not_mem (by decide) digits
    | false => exact digits

/-- Text without a point is read as an integer, unless 128 bits do not hold it. -/
theorem parse_whole {profile : LiteralProfile} {t : DataType}
    (target : numericType? none (fallback profile (wholeChars negative n)) = some t) :
    parse (wholeChars negative n) profile =
      if leastInteger ≤ Binary.signed negative n ∧ Binary.signed negative n ≤ greatestInteger then
        .ok (.ofNumber t (.ofInt (Binary.signed negative n)))
      else .error .failed := by
  have parts := classify_wholeChars negative n
  have decimal := decimal_wholeChars negative n
  have read := integer?_wholeChars negative n
  split
  case isTrue held => exact parse_of_value? parts (value?_decimal decimal read held.1 held.2 target)
  case isFalse beyond => exact parse_of_none parts (value?_decimal_of_beyond decimal read beyond none profile)

/-- Under the profile of INT the integer is narrowed to INT, and to BOOL without loss. -/
theorem number?_wholeChars :
    (Value.ofNumber (fallback {} (wholeChars negative n)) (.ofInt (Binary.signed negative n))).number? =
      some (.ofInt (DataType.int.wrap (Binary.signed negative n))) := by
  have read := integer?_wholeChars negative n
  unfold fallback
  split
  case isTrue digit =>
    rcases digit with zero | one
    · rw [zero] at read
      rw [← Option.some.inj read]
      decide
    · rw [one] at read
      rw [← Option.some.inj read]
      decide
  case isFalse =>
    have holds := Value.Word.holds_ofNumber (t := .int) rfl (Binary.signed negative n)
    rw [(holds.word rfl).number?_eq, holds.toInt]

end Literal

/-! ## §2 Whole numbers as LREAL values -/

namespace Binary

/-- The least positive LREAL value. -/
def quantum : Double :=
  finite false 1 ⟨Format.aligned_of_le Nat.one_le_two_pow, Nat.one_lt_two_pow (by decide)⟩

end Binary

theorem Number.toDouble_ofInt {n : Int} (least : -2 ^ 127 ≤ n) (most : n < 2 ^ 127) :
    (Number.ofInt n).toDouble = Binary.ofInt n :=
  congrArg Binary.ofInt ((BitVec.toInt_ofInt n).trans (Int.bmod_eq_of_le (by omega) (by omega)))

namespace Value

theorem number?_ofNumber_lreal (m : Number) : (ofNumber .lreal m).number? = some (.real m.toDouble) := rfl

theorem number?_retype_lreal {v : Value} (other : .lreal ≠ v.type) (carries : v.carriesNumber = true)
    {n : Int} (found : v.number? = some (.ofInt n)) (least : -2 ^ 127 ≤ n) (most : n < 2 ^ 127) :
    (v.retype .lreal).number? = some (.real (Binary.ofInt n)) :=
  calc (v.retype .lreal).number?
    _ = (ofNumber .lreal (.ofInt n)).number? :=
      congrArg Payload.number? (payload_retype other carries found)
    _ = some (.real (Number.ofInt n).toDouble) := number?_ofNumber_lreal _
    _ = some (.real (Binary.ofInt n)) := by rw [Number.toDouble_ofInt least most]

theorem payload_lreal {v : Value} (wf : v.WellFormed) (type : v.type = .lreal) :
    ∃ x : Double, v.payload = ⟨.lreal, x⟩ := by
  have shape : v.payload.shape = .lreal := by rw [wf.shape, type]; rfl
  generalize v.payload = p at shape
  obtain ⟨held, data⟩ := p
  obtain rfl : held = .lreal := shape
  exact ⟨data, rfl⟩

end Value

/-! ## §3 There and back -/

namespace Operator

/-- An LREAL value is written as its number. -/
theorem run_convert_lreal {v : Value} (wf : v.WellFormed) (type : v.type = .lreal) {x : Double}
    (held : v.number? = some (.real x)) (result : Value) : (convert {} .string v).run result =
      .ok () (.ofText (String.ofList x.toChars) (DataType.string = .wstring) false) := by
  obtain ⟨y, payload⟩ := Value.payload_lreal wf type
  obtain rfl : y = x := by
    unfold Value.number? at held
    rw [payload] at held
    injection held with same
    injection same
  have plain : v.text? = none := by
    unfold Value.text?
    rw [payload]
    rfl
  have chars : v.toChars = y.toChars := by
    unfold Value.toChars Value.duration? Value.number Value.number?
    rw [type, payload]
    rfl
  have written := converted_toString (s := .string) {} plain rfl
  rw [chars] at written
  exact run_convert wf (type ▸ rfl) rfl written result

/-- What becomes of text is what it denotes, turned to LREAL. -/
theorem run_convert_text (cs : List Char) (result : Value) :
    (convert {} .lreal (.ofText (String.ofList cs) (DataType.string = .wstring) false)).run result =
      match Literal.parse cs {} with
      | .ok u => .ok () (u.retype .lreal)
      | .error fault => .error fault result := by
  have wf := Value.closed_wellFormed.ofText (String.ofList cs) (DataType.string = .wstring) false
  rw [run_convert_eq wf rfl rfl, converted_text {} cs rfl]
  cases Literal.parse cs {} <;> rfl

/-- Text of a whole number: what was left of the number in INT becomes the value, if 128 bits held it. -/
theorem run_convert_whole (negative : Bool) (n : Nat) (result : Value) :
    ∃ back : Value, back.type = .lreal ∧
      back.toDouble = Binary.ofInt (DataType.int.wrap (Binary.signed negative n)) ∧
      (convert {} .lreal (.ofText (String.ofList (Literal.wholeChars negative n))
        (DataType.string = .wstring) false)).run result =
          if Literal.leastInteger ≤ Binary.signed negative n ∧
              Binary.signed negative n ≤ Literal.greatestInteger then .ok () back
          else .error .failed result := by
  have narrowed := Literal.number?_wholeChars negative n
  -- One of the digits 0 and 1 alone is a truth value, which carries its number just as well.
  have each : ∀ t ∈ [DataType.bool, .int], Literal.numericType? none t = some t ∧ .lreal ≠ t ∧
      (Value.zero t).carriesNumber = true := by decide
  have member : Literal.fallback {} (Literal.wholeChars negative n) ∈ [DataType.bool, .int] := by
    unfold Literal.fallback
    split <;> decide
  obtain ⟨target, other, carries⟩ := each _ member
  have parsed := Literal.parse_whole negative n target
  generalize Literal.fallback {} (Literal.wholeChars negative n) = t at *
  obtain ⟨least, most⟩ := DataType.wrap_int (Binary.signed negative n)
  have carried : (Value.ofNumber t (.ofInt (Binary.signed negative n))).carriesNumber = true := carries
  have number := Value.number?_retype_lreal other carried narrowed (by omega) (by omega)
  refine ⟨(Value.ofNumber t (.ofInt (Binary.signed negative n))).retype .lreal,
    Value.type_retype _ _, ?_, ?_⟩
  · unfold Value.toDouble Value.number
    rw [number]
    rfl
  · rw [run_convert_text, parsed]
    by_cases held : Literal.leastInteger ≤ Binary.signed negative n ∧
        Binary.signed negative n ≤ Literal.greatestInteger
    · rw [if_pos held, if_pos held]
    · rw [if_neg held, if_neg held]

/-- What comes of text that spells the whole number `m`: what INT leaves of it, as an LREAL value, if 128 bits
hold it, and otherwise a fault. -/
def ThroughInt (m : Int) (text result : Value) : Prop :=
  if Literal.leastInteger ≤ m ∧ m ≤ Literal.greatestInteger then
    ∃ back, (convert {} .lreal text).run result = .ok () back ∧ back.type = .lreal ∧
      back.toDouble = Binary.ofInt (DataType.int.wrap m)
  else (convert {} .lreal text).run result = .error .failed result

theorem throughInt_wholeChars (negative : Bool) (n : Nat) (result : Value) :
    ThroughInt (Binary.signed negative n) (.ofText (String.ofList (Literal.wholeChars negative n))
      (DataType.string = .wstring) false) result := by
  obtain ⟨back, type, value, run⟩ := run_convert_whole negative n result
  unfold ThroughInt
  split
  case isTrue held => exact ⟨back, run.trans (if_pos held), type, value⟩
  case isFalse beyond => exact run.trans (if_neg beyond)

/-- A value with a fraction comes back as it was. -/
theorem convert_fraction {negative : Bool} {units : Nat} (fits : Format.double.Fits units)
    (fractional : ¬2 ^ Format.double.scale ∣ units) (result : Value) :
    (convert {} .lreal (.ofText (String.ofList (Binary.finite negative units fits).toChars)
      (DataType.string = .wstring) false)).run result =
        .ok () (.ofNumber .lreal (.real (.finite negative units fits))) := by
  obtain ⟨characters, point, read⟩ := Binary.toChars_fraction negative fits fractional
  have target : Literal.numericType? none ({} : LiteralProfile).realType = some .lreal := rfl
  rw [run_convert_text, Literal.parse_point characters point read target]
  exact congrArg (EStateM.Result.ok ()) (Value.retype_self _)

/-- A whole value comes back if INT has room for it, and otherwise it does not. -/
theorem convert_whole {negative : Bool} {units : Nat} (fits : Format.double.Fits units)
    (whole : 2 ^ Format.double.scale ∣ units) (result : Value) :
    (∃ back, (convert {} .lreal (.ofText (String.ofList (Binary.finite negative units fits).toChars)
        (DataType.string = .wstring) false)).run result = .ok () back ∧ back.type = .lreal ∧
        back.toDouble.compare? (.finite negative units fits) = some .eq) ↔
      ∀ n : Int, Binary.signed negative units = n * 2 ^ Format.double.scale →
        -2 ^ 15 ≤ n ∧ n < 2 ^ 15 := by
  -- The text is that of some `n` which rounds to the value, but it comes back as what INT leaves of `n`.
  -- That is the value if INT holds it, for then `n` is the value itself, and only then.
  obtain ⟨n, text, rfl⟩ := Binary.toChars_whole negative fits whole
  obtain ⟨back, type, value, run⟩ := run_convert_whole negative n result
  rw [← Literal.wholeChars] at text
  rw [Binary.forall_whole_iff, text, run]
  obtain ⟨low, high⟩ := DataType.wrap_int (Binary.signed negative n)
  have small : (DataType.int.wrap (Binary.signed negative n)).natAbs ≤ 2 ^ 15 := by omega
  have equal := Binary.compare?_ofInt negative _ small (by decide) (by decide) fits
  rw [← value] at equal
  constructor
  · rintro ⟨b, run', _, same⟩
    split at run'
    case isTrue =>
      cases run'
      rw [← equal.mp same]
      exact ⟨low, high⟩
    case isFalse => cases run'
  · rintro ⟨least, most⟩
    -- The text of a whole number of few bits is that of the number itself.
    have few : Format.double.round n 1 < 2 ^ Format.double.precision := by
      have abs := Binary.natAbs_signed negative (Format.double.round n 1)
      have le : Format.double.round n 1 ≤ 2 ^ 15 := by omega
      exact Nat.lt_of_le_of_lt le (by decide)
    have kept := Format.eq_of_round_lt few
    rw [kept] at least most
    have held : Literal.leastInteger ≤ Binary.signed negative n ∧
        Binary.signed negative n ≤ Literal.greatestInteger := by
      unfold Literal.leastInteger Literal.greatestInteger
      omega
    rw [if_pos held]
    refine ⟨back, rfl, type, equal.mpr ?_⟩
    rw [kept, DataType.wrap_int_self least most]

/-- Written as text and read again, a finite LREAL value is equal to what it was exactly if it is no whole
number or one that INT holds. The text of a whole one spells a whole number that is rounded to it, and comes
back through INT. -/
theorem convert_real_back {v : Value} (wf : v.WellFormed) (type : v.type = .lreal) {negative : Bool}
    {units : Nat} {fits : Format.double.Fits units}
    (held : v.number? = some (.real (.finite negative units fits))) (result result' : Value) :
    ∃ text, (convert {} .string v).run result = .ok () text ∧ text.type = .string ∧
      ((∃ back, (convert {} .lreal text).run result' = .ok () back ∧ back.type = .lreal ∧
          back.toDouble.compare? v.toDouble = some .eq) ↔
        ∀ n : Int, Binary.signed negative units = n * 2 ^ Format.double.scale →
          -2 ^ 15 ≤ n ∧ n < 2 ^ 15) ∧
      (2 ^ Format.double.scale ∣ units → ∃ n, Format.double.round n 1 * 2 ^ Format.double.scale = units ∧
        text.text? = some (.ofString (String.ofList (Literal.wholeChars negative n)) false) ∧
        ThroughInt (Binary.signed negative n) text result') := by
  refine ⟨_, run_convert_lreal wf type held result, rfl, ?_, fun whole => ?spelled⟩
  case spelled =>
    obtain ⟨n, spelled, rounds⟩ := Binary.toChars_whole negative fits whole
    rw [← Literal.wholeChars] at spelled
    rw [spelled]
    exact ⟨n, rounds, rfl, throughInt_wholeChars negative n result'⟩
  have value : v.toDouble = .finite negative units fits := by
    unfold Value.toDouble Value.number
    rw [held]
    rfl
  rw [value]
  by_cases whole : 2 ^ Format.double.scale ∣ units
  case pos => exact convert_whole fits whole result'
  case neg =>
    constructor
    · intro _ n same
      exact absurd (Binary.dvd_of_signed same) whole
    · intro _
      exact ⟨_, convert_fraction fits whole result', rfl, Binary.compare?_self negative fits⟩

/-- The least positive value has 1074 places, of which its text keeps enough. -/
theorem convert_real_back_quantum : ∃ text back : Value,
    (convert {} .string (.ofNumber .lreal (.real .quantum))).run .null = .ok () text ∧ text.type = .string ∧
      (convert {} .lreal text).run .null = .ok () back ∧ back.type = .lreal ∧
      back.toDouble.compare? .quantum = some .eq := by
  have wf := (Value.wellFormed_zero .lreal).setNumber (.real .quantum)
  have fractional : ∀ n : Int, Binary.signed false 1 = n * 2 ^ Format.double.scale →
      -2 ^ 15 ≤ n ∧ n < 2 ^ 15 := by
    intro n same
    have one := Nat.dvd_one.mp (Binary.dvd_of_signed same)
    exact absurd one (Nat.ne_of_gt (Nat.one_lt_two_pow (by decide)))
  obtain ⟨text, written, string, comes_back, _⟩ := convert_real_back wf rfl
    (Value.number?_ofNumber_lreal (.real .quantum)) .null .null
  obtain ⟨back, read, type, same⟩ := comes_back.mpr fractional
  exact ⟨text, back, written, string, read, type, same⟩

/-- The text of 40000 is read as an INT. -/
theorem convert_real_lost : ¬∀ (v result result' : Value) (negative : Bool) (units : Nat)
    (fits : Format.double.Fits units), v.WellFormed → v.type = .lreal →
      v.number? = some (.real (.finite negative units fits)) →
      ∃ text back, (convert {} .string v).run result = .ok () text ∧
        (convert {} .lreal text).run result' = .ok () back ∧ back.type = .lreal ∧
        back.toDouble.compare? (.finite negative units fits) = some .eq := by
  intro survives
  have fits : Format.double.Fits (40000 * 2 ^ Format.double.scale) :=
    @Format.fits_quanta _ 40000 16 (by decide) (by decide) (by decide)
  have number := Value.number?_ofNumber_lreal (.real (.finite false _ fits))
  have wf := (Value.wellFormed_zero .lreal).setNumber (.real (.finite false _ fits))
  obtain ⟨text, back, written, read, type, same⟩ := survives _ .null .null false _ fits wf rfl number
  rw [run_convert_lreal wf rfl number] at written
  cases written
  have range := (convert_whole fits (Nat.dvd_mul_left _ _) .null).mp ⟨back, read, type, same⟩
  have inside := range 40000 (Binary.signed_quanta false 40000)
  exact absurd inside.2 (by decide)

end Operator

end Plc
