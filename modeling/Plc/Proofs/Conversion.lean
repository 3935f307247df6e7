import Plc.Proofs.Literal.Meaning
import Plc.Proofs.Operator.Settles

/-!
# Conversions settle

A conversion by value copies a new value into the result: one read from text, a text, or the operand
retyped. So it keeps the properties that fresh values have and no write takes away (`Value.Closed`).

Main statements:

* `Closed.materialize`, `Closed.parse`: what a literal denotes has the property.
* `Conversion.apply_settles`: every kind of conversion settles.
-/

namespace Plc

open Program

namespace Value.Closed

variable {P : Value → Prop} (closed : Closed P)
include closed

/-! ## §1 Literals -/

theorem literal {literal : Literal} {profile : LiteralProfile} {v : Value}
    (found : literal.value? profile = some v) : P v := by
  rcases Literal.value?_cases found with ⟨t, n, _, _, rfl⟩ | ⟨d, _, rfl⟩ | ⟨t, p, _, plain, made⟩
  · exact closed.ofNumber t n
  · exact closed.setDuration _ d (closed.zero .time)
  · -- Dates and times are words, and no texts.
    have genuine : p.Genuine := fun s text => by
      rw [plain] at text
      cases text
    exact closed.setPayload genuine made (closed.zero t)

theorem materialize {literal : Literal} {profile : LiteralProfile} {v : Value}
    (found : literal.materialize profile = .ok v) : P v := by
  unfold Literal.materialize at found
  split at found
  case h_1 denoted =>
    cases found
    exact closed.literal denoted
  case h_2 => cases found

theorem parse {text : List Char} {profile : LiteralProfile} {v : Value}
    (found : Literal.parse text profile = .ok v) : P v := by
  obtain ⟨literal, _, denoted⟩ := Literal.exists_of_parse found
  exact closed.literal denoted

/-! ## §2 Conversion by value -/

theorem readText {text : CharString} {target : DataType} {profile : LiteralProfile} {v : Value}
    (found : Operator.ofText text target profile = .ok v) : P v := by
  unfold Operator.ofText at found
  split at found
  case isTrue =>
    cases found
    exact closed.ofText _ _ _
  case isFalse =>
    cases parsed : Literal.parse text.chars profile with
    | ok read =>
      rw [parsed] at found
      cases found
      exact closed.retype read target (closed.parse parsed)
    | error fault =>
      rw [parsed] at found
      cases found

theorem converted {profile : LiteralProfile} {target : DataType} {a v : Value} (holds : P a)
    (found : Operator.converted profile target a = .ok v) : P v := by
  unfold Operator.converted at found
  split at found
  case h_1 text _ => exact closed.readText found
  case h_2 =>
    split at found
    case isTrue =>
      cases found
      exact closed.ofText _ _ _
    case isFalse =>
      cases found
      exact closed.retype a target holds

end Value.Closed

/-! ## §3 Conversions by name -/

namespace Conversion

variable {P : Value → Prop} (closed : Value.Closed P)
include closed

theorem kind_settles (kind : ConversionKind) (profile : LiteralProfile) (target : DataType)
    {a : Value} (holds : P a) : Settles P (kind.apply profile target a) := by
  cases kind with
  | ofBcd => exact Operator.ofBcd_settles closed.toStable target a
  | toBcd => exact Operator.toBcd_settles closed.toStable target a
  | truncate => exact Operator.truncate_settles closed.toStable target a
  | convert => exact Operator.convert_settles fun _ found => closed.converted holds found

theorem apply_settles (c : Conversion) (profile : LiteralProfile) {a : Value} (holds : P a) :
    Settles P (c.apply profile a) :=
  settles_check fun _ _ => kind_settles closed c.kind profile c.target holds

end Conversion

end Plc
