import Plc.Proofs.Literal.ExplicitType
import Plc.Proofs.Literal.Number
import Plc.Settings

/-!
# Accepted settings read literals

The types that literals take are words of a document. A word that names no type gives way to the default,
and one that names a type of another category is refused. So whatever the words are, settings that are
accepted have types at which literals can be read: all that can be wrong with the literal of a number is
its body.

Main statements:

* `Choices.usable_of_settings`: the types of accepted settings are of their categories.
* `LiteralProfile.Usable.target`: each of them is a type that a number may have.
* `Choices.settings_read`: literals under accepted settings.
-/

namespace Plc

/-! ## §1 Profiles -/

/-- The types of a profile belong to the categories that the settings ask for. -/
structure LiteralProfile.Usable (profile : LiteralProfile) : Prop where
  integer : profile.integerType.belongs .int = true
  real : profile.realType.belongs .real = true
  bits : profile.bitsType.belongs .integral = true

/-- The categories of the settings are within those that a number may have. -/
theorem LiteralProfile.Usable.target {profile : LiteralProfile} (usable : profile.Usable)
    {kind : LiteralKind} (number : kind ∈ Literal.numberKinds) :
    (profile.typeOf kind).belongsAny [.magnitude, .bit] = true := by
  have each : ∀ c ∈ [Category.int, .real, .integral], ∀ t ∈ DataType.all, t.belongs c = true →
      t.belongsAny [.magnitude, .bit] = true := by decide
  have integer := each .int (by simp) _ (DataType.mem_all _) usable.integer
  have real := each .real (by simp) _ (DataType.mem_all _) usable.real
  have bits := each .integral (by simp) _ (DataType.mem_all _) usable.bits
  simp only [Literal.numberKinds, List.mem_cons, List.not_mem_nil, or_false] at number
  rcases number with rfl | rfl | rfl | rfl | rfl | rfl
  · exact integer
  · exact real
  · exact real
  · exact bits
  · exact bits
  · exact bits

/-! ## §2 Accepted words -/

namespace Choices

theorem exists_of_bind {ε α β : Type} {x : Except ε α} {f : α → Except ε β} {b : β}
    (ran : (x >>= f) = .ok b) : ∃ a, x = .ok a ∧ f a = .ok b := by
  cases x with
  | ok a => exact ⟨a, rfl, ran⟩
  | error _ => cases ran

/-- What a word chooses, or leaves at its default, belongs to the category. -/
theorem belongs_of_pickType {field : String} {category : Category} {otherwise t : DataType}
    {word : Option (List Char)} (default : otherwise.belongs category = true)
    (picked : pickType field category otherwise word = .ok t) : t.belongs category = true := by
  unfold pickType at picked
  split at picked
  case h_1 =>
    cases picked
    exact default
  case h_2 =>
    split at picked
    case h_1 =>
      -- The word names no type.
      cases picked
      exact default
    case h_2 =>
      split at picked
      case isTrue member =>
        cases picked
        exact member
      case isFalse => cases picked

/-- The words are looked at one after the other, and none is refused. -/
theorem usable_of_settings {c : Choices} {s : Settings} (accepted : c.settings = .ok s) :
    s.literals.Usable := by
  unfold settings at accepted
  obtain ⟨_, _, accepted⟩ := exists_of_bind accepted
  obtain ⟨_, _, accepted⟩ := exists_of_bind accepted
  obtain ⟨_, integer, accepted⟩ := exists_of_bind accepted
  obtain ⟨_, real, accepted⟩ := exists_of_bind accepted
  obtain ⟨_, bits, accepted⟩ := exists_of_bind accepted
  cases accepted
  -- The defaults INT, LREAL and INT belong to the three categories.
  exact ⟨belongs_of_pickType rfl integer, belongs_of_pickType rfl real, belongs_of_pickType rfl bits⟩

/-! ## §3 Literals -/

/-- Under accepted settings, a literal of a number that names no type is read if and only if its body is
a number of its kind, and then it has the type that the settings give for the kind. -/
theorem settings_read {c : Choices} {s : Settings} (accepted : c.settings = .ok s) :
    s.literals.integerType.belongs .int = true ∧ s.literals.realType.belongs .real = true ∧
      s.literals.bitsType.belongs .integral = true ∧
      ∀ text kind body, Literal.classify text = .ok ⟨kind, none, body⟩ → kind ∈ Literal.numberKinds →
        ((∃ v, Literal.parse text s.literals = .ok v) ↔ Literal.IsNumber kind body) ∧
          ∀ v, Literal.parse text s.literals = .ok v → v.type = s.literals.typeOf kind := by
  have usable := usable_of_settings accepted
  refine ⟨usable.integer, usable.real, usable.bits, ?_⟩
  intro text kind body classified number
  have value : (∃ v, Literal.value? ⟨kind, none, body⟩ s.literals = some v) ↔
      Literal.IsNumber kind body := Literal.value?_iff_isNumber number (usable.target number)
  refine ⟨Iff.trans ?_ value, ?_⟩
  · constructor
    · rintro ⟨v, parsed⟩
      exact ⟨v, Literal.value?_of_parse classified parsed⟩
    · rintro ⟨v, found⟩
      exact ⟨v, Literal.parse_of_value? classified found⟩
  · intro v parsed
    have type := Literal.type_of_value? (Literal.value?_of_parse classified parsed)
    simpa [Literal.ownType?_of_number number] using type

/-- Numbers with a radix are of a type of bit strings, and FLOAT is the name of no type. -/
theorem settings_read_byte :
    let words : Choices := { realType := some "FLOAT".toList, bitsType := some "byte".toList }
    ∃ s, words.settings = .ok s ∧ s.literals.realType = .lreal ∧
      (∃ v, Literal.parse "16#1f".toList s.literals = .ok v ∧ v.type = .byte) ∧
      ¬∃ v, Literal.parse "12x".toList s.literals = .ok v := by
  intro words
  have accepted : words.settings = .ok { literals := { bitsType := .byte } } := by decide +kernel
  obtain ⟨_, _, _, read⟩ := settings_read accepted
  have radix := read "16#1f".toList .base16 "1F".toList (by decide +kernel) (by decide)
  have decimal := read "12x".toList .integer "12X".toList (by decide +kernel) (by decide)
  refine ⟨_, accepted, rfl, ?_, ?_⟩
  · have number : Literal.IsNumber .base16 "1F".toList :=
      ⟨31, (Literal.natural?_iff (by decide)).mp (by decide), by decide⟩
    obtain ⟨v, parsed⟩ := radix.1.mpr number
    exact ⟨v, parsed, radix.2 v parsed⟩
  · rw [decimal.1]
    rintro ⟨n, signed, _⟩
    cases Literal.integer?_iff.mpr signed

end Choices

end Plc
