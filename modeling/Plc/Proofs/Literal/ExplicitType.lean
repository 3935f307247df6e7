import Mathlib.Data.List.Basic
import Plc.Proofs.Literal.Meaning

/-!
# The type of a literal

A number takes the type in front of it, and without one the type that a profile gives for its kind. A
duration, a date or a time has the type of its kind, and a type in front of it is read but not looked at
again. So a type in front decides the type of the value except where a mark of another type follows it.

Main statements:

* `type_of_value?`: the type of whatever a literal denotes.
* `type_eq_explicit_iff`: when the type in front is the type of the value.
* `type_ne_explicit`: the exception does arise.
-/

namespace Plc.Literal

variable {v : Value}

/-! ## §1 Types by kind -/

theorem type_typed? {t : DataType} {p : Payload} (found : typed? t p = some v) : v.type = t := by
  unfold typed? Value.setPayload? at found
  split at found
  · cases found
    rfl
  · cases found

/-- A kind with a type of its own prevails over the type in front, and that over the profile. -/
theorem type_of_value? {literal : Literal} {profile : LiteralProfile}
    (found : literal.value? profile = some v) :
    v.type = literal.kind.ownType?.getD (literal.explicit.getD (profile.typeOf literal.kind)) := by
  rcases value?_cases found with ⟨t, n, noOwn, target, rfl⟩ | ⟨d, own, rfl⟩ | ⟨t, p, own, _, made⟩
  · rw [noOwn]
    exact eq_of_numericType? target
  · rw [own]
    exact Value.type_retype (.zero .time) .time
  · rw [own]
    exact type_typed? made

/-! ## §2 The type in front -/

/-- The type in front is the type of the value unless the kind of the literal has another one. -/
theorem type_eq_explicit_iff {text : List Char} {literal : Literal} {t : DataType}
    (classified : classify text = .ok literal) (named : literal.explicit = some t)
    {profile : LiteralProfile} (parsed : parse text profile = .ok v) :
    v.type = t ↔ ∀ own, literal.kind.ownType? = some own → own = t := by
  have type := type_of_value? (value?_of_parse classified parsed)
  rw [named, Option.getD_some] at type
  cases kind : literal.kind.ownType? with
  | none =>
    rw [kind, Option.getD_none] at type
    simp [type]
  | some own =>
    rw [kind, Option.getD_some] at type
    simp [type]

theorem type_eq_explicit_narrowed :
    ∃ literal v, classify "SINT#300".toList = .ok literal ∧ literal.explicit = some .sint ∧
      parse "SINT#300".toList {} = .ok v ∧ v.type = .sint := by
  have classified : classify "SINT#300".toList = .ok ⟨.integer, some .sint, "300".toList⟩ := by
    decide +kernel
  have parsed : parse "SINT#300".toList {} = .ok (.ofNumber .sint (.ofInt 300)) := by decide +kernel
  refine ⟨_, _, classified, rfl, parsed, ?_⟩
  exact (type_eq_explicit_iff classified rfl parsed).mpr fun own none => by cases none

/-- INT in front of the mark of a duration does not make an INT of it, and is no fault either. -/
theorem type_ne_explicit :
    ¬∀ (text : List Char) (profile : LiteralProfile) (literal : Literal) (t : DataType) (v : Value),
      classify text = .ok literal → literal.explicit = some t → parse text profile = .ok v →
        v.type = t := by
  intro always
  have classified : classify "INT#T#1S".toList = .ok ⟨.duration, some .int, "1S".toList⟩ := by
    decide +kernel
  have parsed : parse "INT#T#1S".toList {} = .ok (.ofDuration (.ofSeconds 1)) := by decide +kernel
  cases always _ {} _ _ _ classified rfl parsed

end Plc.Literal
