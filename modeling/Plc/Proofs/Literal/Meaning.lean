import Plc.Literal.Meaning

/-!
# What a literal can denote

The eleven kinds of literals denote in three ways only. A number is stored in a fresh value, of the type
in front or of the one that a profile gives for the kind. A duration is stored in a fresh TIME. A date
or time is put into a fresh value of the type of its kind, as it was read.

Main statements:

* `value?_cases`: the three ways.
* `parse_of_value?`, `parse_of_none`, `value?_of_parse`: from the parts of a literal to its value.
-/

namespace Plc

/-- The type of a kind that has one of its own. -/
def LiteralKind.ownType? : LiteralKind → Option DataType
  | .duration => some .time
  | .date => some .date
  | .timeOfDay => some .tod
  | .dateAndTime => some .dt
  | _ => none

/-- The type of a number that names none, by its kind. -/
def LiteralProfile.typeOf (profile : LiteralProfile) : LiteralKind → DataType
  | .boolean => .bool
  | .integer => profile.integerType
  | .real | .realExp => profile.realType
  | _ => profile.bitsType

namespace Literal

variable {explicit : Option DataType} {otherwise : DataType} {body : List Char} {v : Value}

/-! ## §1 Numbers -/

theorem integer?_eq_some (found : integer? explicit otherwise body = some v) :
    ∃ t n, numericType? explicit otherwise = some t ∧ v = .ofNumber t n := by
  simp only [integer?, Option.bind_eq_bind, Option.bind_eq_some_iff, Option.pure_def,
    Option.some.injEq] at found
  obtain ⟨t, target, n, _, rfl⟩ := found
  exact ⟨t, _, target, rfl⟩

theorem real?_eq_some (found : real? explicit otherwise body = some v) :
    ∃ t n, numericType? explicit otherwise = some t ∧ v = .ofNumber t n := by
  simp only [real?, Option.bind_eq_bind, Option.bind_eq_some_iff, Option.pure_def,
    Option.some.injEq] at found
  obtain ⟨t, target, x, _, rfl⟩ := found
  exact ⟨t, _, target, rfl⟩

theorem radix?_eq_some {radix : Nat} (found : radix? radix explicit otherwise body = some v) :
    ∃ t n, numericType? explicit otherwise = some t ∧ v = .ofNumber t n := by
  simp only [radix?, Option.bind_eq_bind, Option.bind_eq_some_iff] at found
  obtain ⟨t, target, n, _, found⟩ := found
  split at found
  · cases found
    exact ⟨t, _, target, rfl⟩
  · cases found

theorem eq_of_numericType? {t : DataType} (found : numericType? explicit otherwise = some t) :
    t = explicit.getD otherwise :=
  (Option.some.inj (Option.filter_eq_some_iff.mp found).1).symm

/-! ## §2 All kinds -/

theorem value?_cases {literal : Literal} {profile : LiteralProfile}
    (found : literal.value? profile = some v) :
    (∃ t n, literal.kind.ownType? = none ∧
      numericType? literal.explicit (profile.typeOf literal.kind) = some t ∧ v = .ofNumber t n) ∨
    (∃ d, literal.kind.ownType? = some .time ∧ v = (Value.zero .time).setDuration d) ∨
    ∃ t p, literal.kind.ownType? = some t ∧ p.text? = none ∧ typed? t p = some v := by
  obtain ⟨kind, explicit, body⟩ := literal
  -- A kind goes with the way in which its case of the definition ends.
  cases kind with
  | boolean | integer =>
    obtain ⟨t, n, target, stored⟩ := integer?_eq_some found
    exact Or.inl ⟨t, n, rfl, target, stored⟩
  | real | realExp =>
    obtain ⟨t, n, target, stored⟩ := real?_eq_some found
    exact Or.inl ⟨t, n, rfl, target, stored⟩
  | base2 | base8 | base16 =>
    obtain ⟨t, n, target, stored⟩ := radix?_eq_some found
    exact Or.inl ⟨t, n, rfl, target, stored⟩
  | duration =>
    obtain ⟨d, _, rfl⟩ := Option.map_eq_some_iff.mp found
    exact Or.inr (Or.inl ⟨d, rfl, rfl⟩)
  | date | timeOfDay | dateAndTime =>
    obtain ⟨ticks, _, found⟩ := Option.bind_eq_some_iff.mp found
    exact Or.inr (Or.inr ⟨_, _, rfl, rfl, found⟩)

/-! ## §3 From the parts to the value -/

theorem parse_of_value? {text : List Char} {literal : Literal} {profile : LiteralProfile}
    (classified : classify text = .ok literal) (found : literal.value? profile = some v) :
    parse text profile = .ok v := by
  show (classify text >>= fun literal => literal.materialize profile) = .ok v
  rw [classified]
  show literal.materialize profile = .ok v
  unfold materialize
  rw [found]

theorem parse_of_none {text : List Char} {literal : Literal} {profile : LiteralProfile}
    (classified : classify text = .ok literal) (none : literal.value? profile = none) :
    parse text profile = .error .failed := by
  show (classify text >>= fun literal => literal.materialize profile) = .error .failed
  rw [classified]
  show literal.materialize profile = .error .failed
  unfold materialize
  rw [none]

theorem value?_of_parse {text : List Char} {literal : Literal} {profile : LiteralProfile}
    (classified : classify text = .ok literal) (parsed : parse text profile = .ok v) :
    literal.value? profile = some v := by
  -- What the literal denotes settles how the text is parsed, so it cannot be anything else.
  cases found : literal.value? profile with
  | some w =>
    rw [parse_of_value? classified found] at parsed
    cases parsed
    rfl
  | none =>
    rw [parse_of_none classified found] at parsed
    cases parsed

/-- There is a literal behind every value that text denotes. -/
theorem exists_of_parse {text : List Char} {profile : LiteralProfile}
    (parsed : parse text profile = .ok v) :
    ∃ literal, classify text = .ok literal ∧ literal.value? profile = some v := by
  cases classified : classify text with
  | ok literal => exact ⟨literal, rfl, value?_of_parse classified parsed⟩
  | error fault =>
    unfold parse at parsed
    rw [classified] at parsed
    cases parsed

end Literal

end Plc
