import Plc.Proofs.Conversion.RoundTrip
import Plc.Proofs.Literal.Duration
import Plc.Proofs.Value.TimeSpan

/-!
# Durations in text and back

A TIME is written as a literal with one group, its whole milliseconds; what it has beyond them is not
written. The literal is read as every duration is, by LREAL arithmetic: the number of milliseconds is short
enough to be read exactly, but its product with a million keeps 53 significant bits only. The text is
always a duration in range, so the way back never fails.

Main statements:

* `Literal.parse_of_upper`: a duration literal in any letter case.
* `Duration.throughText_reread`: what the text keeps, and when it keeps everything.
* `Operator.convert_time_back`: there and back, for every TIME.
* `Operator.survives_iff`: which durations are as they were.
-/

namespace Plc

open Literal (nearest rounded durationText)

/-! ## §1 The text -/

namespace Literal

/-- The sign of an integer, as it is rendered. -/
def Sign.ofInt (n : Int) : Sign := if n < 0 then .minus else .absent

theorem Sign.isMinus_ofInt (n : Int) : (Sign.ofInt n).isMinus = decide (n < 0) := by
  unfold Sign.ofInt
  split
  case isTrue negative => exact (decide_eq_true negative).symm
  case isFalse positive => exact (decide_eq_false positive).symm

theorem render_eq (n : Int) : Numeral.render n = (Sign.ofInt n).spell ++ Nat.toDigits 10 n.natAbs := by
  unfold Numeral.render Sign.ofInt
  split <;> rfl

/-- The one group of a duration that is written in milliseconds. -/
def millisGroup (n : Int) : Group := .ofNat n.natAbs .millis

theorem upper_millis (n : Int) :
    Text.upper ("T#".toList ++ Numeral.render n ++ "ms".toList) =
      durationText (.ofInt n) [millisGroup n] := by
  have raised : Text.upper (Numeral.render n) = Numeral.render n := (decimal_render n).upper
  have mark : Text.upper "T#".toList = ['T', '#'] := by decide
  have unit : Text.upper "ms".toList = ['M', 'S'] := by decide
  have written : spell [millisGroup n] = Nat.toDigits 10 n.natAbs ++ ['M', 'S'] := List.append_nil _
  unfold durationText
  rw [Text.upper_append, Text.upper_append, raised, mark, unit, render_eq, written, List.append_assoc,
    List.append_assoc]
  rfl

/-- Letters may be small, since all of them are raised before a literal is taken apart. -/
theorem parse_of_upper {text : List Char} {sign : Sign} {groups : List Group} (some : groups ≠ [])
    (spelled : Text.upper text = durationText sign groups) (within : rounded groups ≤ 2 ^ 63)
    (profile : LiteralProfile) : parse text profile =
      .ok (.ofDuration (.saturate (Binary.signed sign.isMinus (rounded groups)))) := by
  have visible : ∀ c ∈ text, Text.isBlank c = false := by
    refine Text.notBlank_of_upper fun c mem => ?_
    rw [spelled] at mem
    exact (plain_durationText mem).1
  have seen : Text.upper (Text.trim text) = durationText sign groups := by
    rw [Text.trim_of_notBlank visible, spelled]
  have read := duration?_spell sign some
  rw [if_pos within] at read
  refine parse_of_value? (classify_duration seen) ?_
  show (duration? (sign.spell ++ spell groups)).map (Value.zero .time).setDuration = _
  rw [read, Option.map_some, Value.setDuration_zero]

/-! ## §2 The number in it -/

/-- A group of milliseconds is rounded once, where its number is short. -/
theorem rounded_millisGroup {n : Int} (small : n.natAbs ≤ 2 ^ 53) :
    rounded [millisGroup n] = nearest (n.natAbs * 1000000) := by
  have count : (millisGroup n).count = n.natAbs := Nat.ofDigitChars_ten_toDigits
  have weight : (millisGroup n).unit.weight = 1000000 := rfl
  have read : nearest n.natAbs = n.natAbs := Format.round_of_aligned (Format.aligned_of_le small)
  unfold rounded
  rw [List.foldl_cons, List.foldl_nil]
  unfold addGroup
  rw [count, weight, read, Nat.zero_add, nearest_nearest]

end Literal

theorem Binary.signed_mul (negative : Bool) (m k : Nat) :
    signed negative (m * k) = signed negative m * k := by
  cases negative <;> simp [signed]

namespace Duration

/-- The nanoseconds that the text names, without their sign. -/
def writtenNanos (d : Duration) : Nat := d.millis.natAbs * 1000000

/-- What is read back from the text of a duration. -/
def reread (d : Duration) : Duration :=
  .saturate (Binary.signed (decide (d.millis < 0)) (nearest d.writtenNanos))

/-- What a duration becomes in text and back. -/
structure ThroughText (d e : Duration) : Prop where
  /-- The whole milliseconds, with 53 significant bits of their nanoseconds. -/
  nanos_eq : e.nanos = Binary.signed (decide (d.millis < 0)) (nearest d.writtenNanos)
  /-- That is about a microsecond from them. -/
  near : d.millis * 1000000 - 1024 < e.nanos ∧ e.nanos < d.millis * 1000000 + 1024
  eq_iff : d.Whole → (e = d ↔ Format.double.Aligned d.nanos.natAbs)
  /-- Up to 18 years. -/
  eq_of_le : d.Whole → d.nanos.natAbs ≤ 2 ^ 59 → e = d

variable {d : Duration}

theorem natAbs_millis_le (d : Duration) : d.millis.natAbs ≤ 9223372036854 := by
  have least := d.least_le_millis
  have greatest := d.millis_le_greatest
  omega

theorem signed_writtenNanos (d : Duration) :
    Binary.signed (decide (d.millis < 0)) d.writtenNanos = d.millis * 1000000 := by
  unfold writtenNanos
  rw [Binary.signed_mul, Binary.signed_natAbs]
  rfl

theorem Whole.natAbs_nanos (whole : d.Whole) : d.nanos.natAbs = d.writtenNanos := by
  rw [whole.nanos_eq, Int.natAbs_mul]
  rfl

/-- One part in 2 ^ 53 of what 64 bits can hold. -/
theorem nearest_writtenNanos (d : Duration) :
    nearest d.writtenNanos < d.writtenNanos + 1024 ∧ d.writtenNanos < nearest d.writtenNanos + 1024 := by
  have near := Format.double.round_near d.writtenNanos
  have millis := d.natAbs_millis_le
  have precision : Format.double.precision = 53 := rfl
  rw [precision] at near
  unfold writtenNanos nearest at *
  omega

theorem nanos_reread (d : Duration) :
    d.reread.nanos = Binary.signed (decide (d.millis < 0)) (nearest d.writtenNanos) := by
  have bound : nearest d.writtenNanos < 2 ^ 63 := by
    have near := d.nearest_writtenNanos
    have millis := d.natAbs_millis_le
    unfold writtenNanos at *
    omega
  have size := Binary.natAbs_signed (decide (d.millis < 0)) (nearest d.writtenNanos)
  exact nanos_saturate (by omega) (by omega)

/-- Six of the trailing zeros of a million are binary, which leaves room for as many more bits. -/
theorem aligned_writtenNanos (le : d.writtenNanos ≤ 2 ^ 59) : Format.double.Aligned d.writtenNanos := by
  have bits : d.writtenNanos = d.millis.natAbs * 15625 * 2 ^ 6 := by
    unfold writtenNanos
    omega
  have few : d.millis.natAbs * 15625 ≤ 2 ^ Format.double.precision := by
    have precision : Format.double.precision = 53 := rfl
    rw [precision]
    omega
  have kept := Format.double.round_two_pow (d.millis.natAbs * 15625) 6
  rw [Format.round_of_aligned (Format.aligned_of_le few), ← bits] at kept
  rw [← kept]
  exact Format.double.aligned_round _ _

theorem Whole.reread_eq_iff (whole : d.Whole) :
    d.reread = d ↔ Format.double.Aligned d.nanos.natAbs := by
  have nanos := d.nanos_reread
  rw [whole.natAbs_nanos]
  constructor
  · intro same
    rw [same] at nanos
    have kept : nearest d.writtenNanos = d.writtenNanos :=
      calc nearest d.writtenNanos
        _ = d.nanos.natAbs := by rw [nanos, Binary.natAbs_signed]
        _ = d.writtenNanos := whole.natAbs_nanos
    rw [← kept]
    exact Format.double.aligned_round _ _
  · intro aligned
    have kept : nearest d.writtenNanos = d.writtenNanos := Format.round_of_aligned aligned
    rw [kept, signed_writtenNanos, ← whole.nanos_eq] at nanos
    exact Duration.ext nanos

theorem throughText_reread (d : Duration) : d.ThroughText d.reread where
  nanos_eq := d.nanos_reread
  near := by
    have exact_value := d.signed_writtenNanos
    have near := d.nearest_writtenNanos
    rw [nanos_reread, ← exact_value]
    unfold Binary.signed
    split <;> omega
  eq_iff whole := whole.reread_eq_iff
  eq_of_le whole le := by
    rw [whole.natAbs_nanos] at le
    refine whole.reread_eq_iff.mpr ?_
    rw [whole.natAbs_nanos]
    exact aligned_writtenNanos le

end Duration

/-! ## §3 There and back -/

namespace Value

variable {v : Value} {d : Duration}

theorem Lasts.text?_eq (lasts : v.Lasts d) : v.text? = none := by
  unfold Value.text?
  rw [lasts.payload]
  rfl

theorem Lasts.toChars_eq (lasts : v.Lasts d) :
    v.toChars = "T#".toList ++ Numeral.render d.millis ++ "ms".toList := by
  have notBoolean : ¬v.type.isBoolean = true := by
    rw [lasts.type]
    decide
  unfold Value.toChars
  rw [if_neg notBoolean, lasts.duration?_eq]

theorem Lasts.parse_toChars (lasts : v.Lasts d) (profile : LiteralProfile) :
    Literal.parse v.toChars profile = .ok (.ofDuration d.reread) := by
  have millis := d.natAbs_millis_le
  have sum := Literal.rounded_millisGroup (n := d.millis) (by omega)
  have within : rounded [Literal.millisGroup d.millis] ≤ 2 ^ 63 := by
    have near := d.nearest_writtenNanos
    rw [sum]
    unfold Duration.writtenNanos at near
    omega
  have spelled := Literal.upper_millis d.millis
  rw [← lasts.toChars_eq] at spelled
  have read := Literal.parse_of_upper (List.cons_ne_nil _ _) spelled within profile
  rw [Literal.Sign.isMinus_ofInt, sum] at read
  exact read

end Value

namespace Operator

/-- One text is written, whatever the result was, and one duration is read back from it. -/
theorem exists_text {v : Value} {d : Duration} (lasts : v.Lasts d) {s : DataType}
    (string : s.isCharString = true) : ∃ text : Value, text.type = s ∧
      (∀ profile result, (convert profile s v).run result = .ok () text) ∧
      ∀ profile result, (convert profile .time text).run result = .ok () (.ofDuration d.reread) := by
  have elementary : v.type.belongsAny [.elementary, .char] = true := by
    rw [lasts.type]
    decide
  obtain ⟨textElementary, textTarget⟩ := DataType.convertible_of_isCharString string
  have textWf := Value.closed_wellFormed.ofText (String.ofList v.toChars) (s = .wstring) false
  have textType := type_ofText (String.ofList v.toChars) string
  rw [← textType] at textElementary
  refine ⟨_, textType, ?_, ?_⟩
  · intro profile
    have written := converted_toString profile lasts.text?_eq string
    exact run_convert lasts.wf elementary textTarget written
  · intro profile
    have kept : (Value.ofDuration d.reread).retype .time = .ofDuration d.reread :=
      Value.retype_self _
    have notString : DataType.time.isCharString = false := rfl
    have read := converted_ofText (lasts.parse_toChars profile) notString (s = .wstring)
    rw [kept] at read
    exact run_convert textWf textElementary rfl read

/-- Turned to text and back, a TIME keeps its whole milliseconds as far as LREAL holds them. -/
theorem convert_time_back {v : Value} {d : Duration} (lasts : v.Lasts d) {s : DataType}
    (string : s.isCharString = true) (first profile : LiteralProfile) (result result' : Value) :
    ∃ text e, (convert first s v).run result = .ok () text ∧ text.type = s ∧
      (convert profile .time text).run result' = .ok () (.ofDuration e) ∧ d.ThroughText e := by
  obtain ⟨text, type, there, back⟩ := exists_text lasts string
  exact ⟨text, d.reread, there first result, type, back profile result', d.throughText_reread⟩

/-- A day before zero comes back as it was. -/
theorem convert_time_back_day :
    let day := Value.ofDuration (.ofMillis (-86400000))
    ∃ text : Value, (convert {} .wstring day).run .null = .ok () text ∧ text.type = .wstring ∧
      (convert {} .time text).run .null = .ok () day := by
  intro day
  have lasts : day.Lasts (.ofMillis (-86400000)) := Value.lasts_ofDuration _
  obtain ⟨text, e, there, type, back, through⟩ :=
    convert_time_back (s := .wstring) lasts rfl {} {} .null .null
  have same : e = .ofMillis (-86400000) := through.eq_of_le (by decide) (by decide)
  rw [same] at back
  exact ⟨text, there, type, back⟩

/-- The duration is as it was once it has been turned to STRING and back. -/
def Survives (d : Duration) : Prop :=
  ∃ text back : Value, (convert {} .string (.ofDuration d)).run .null = .ok () text ∧
    (convert {} .time text).run .null = .ok () back ∧ back.Lasts d

theorem survives_iff (d : Duration) : Survives d ↔ d.reread = d := by
  obtain ⟨text, _, there, again⟩ := exists_text (s := .string) (Value.lasts_ofDuration d) rfl
  constructor
  · rintro ⟨text', back, written, read, lasts⟩
    rw [there {} .null] at written
    obtain rfl : text = text' := (EStateM.Result.ok.inj written).2
    rw [again {} .null] at read
    obtain rfl := (EStateM.Result.ok.inj read).2
    exact (Value.lasts_ofDuration d.reread).unique lasts
  · intro same
    have back := again {} .null
    rw [same] at back
    exact ⟨text, .ofDuration d, there {} .null, back, Value.lasts_ofDuration d⟩

/-- A nanosecond is not written at all. This many milliseconds are, but they are one bit too long in
nanoseconds. -/
theorem convert_time_lost :
    ¬Survives (.saturate 1) ∧ ¬Survives (.ofMillis 576460752305) := by
  rw [survives_iff, survives_iff]
  decide +kernel

end Operator

end Plc
