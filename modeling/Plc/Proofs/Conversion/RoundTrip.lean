import Plc.Proofs.Conversion
import Plc.Proofs.Literal.Integer

/-!
# From values to text and back

A value of words is written as the decimal text of its integer. Read back, the text is a plain literal:
zero and one are taken for BOOL, everything else for the integer type of a profile, and the number is
narrowed once to that type and once more to the type it came from. The low bits survive both, so the
content comes back wherever the type of the profile is wide enough. Booleans are written as words of
their own.

Main statements:

* `DataType.Fits`: when a profile's type is wide enough.
* `Operator.run_convert`: a conversion of an operand that it takes.
* `Operator.convert_back`: there and back again.
-/

namespace Plc

/-! ## §1 Words through narrowing -/

namespace Layout

variable {signed : Bool} {width : Nat}

/-- Widening a word leaves its own bits alone. -/
theorem setWidth_widen {narrow : Nat} (w : BitVec width) (le : narrow ≤ width) (le' : narrow ≤ 128) :
    (widen signed w).setWidth narrow = w.setWidth narrow := by
  cases signed with
  | true =>
    apply BitVec.eq_of_getLsbD_eq
    intro i lt
    show ((w.signExtend 128).setWidth narrow).getLsbD i = _
    have below : i < width := Nat.lt_of_lt_of_le lt le
    have below' : i < 128 := Nat.lt_of_lt_of_le lt le'
    simp only [BitVec.getLsbD_setWidth, BitVec.getLsbD_signExtend, below, below', decide_true,
      Bool.true_and, if_true]
  | false => exact BitVec.setWidth_setWidth_of_le w le'

/-- A number that has the low bits of a content is stored as this content. -/
theorem store?_of_number? {l : Layout} (word : l = .word signed width) (le : width ≤ 128)
    {data : l.Carrier} {x y : Wide} (found : l.number? data = some (.int x))
    (same : y.setWidth width = x.setWidth width) : l.store? (.int y) = some data := by
  subst word
  have read : widen signed data = x := Number.int.inj (Option.some.inj found)
  have kept : y.setWidth width = data := by
    rw [same, ← read, setWidth_widen data (Nat.le_refl _) le, BitVec.setWidth_eq]
  exact congrArg some kept

end Layout

theorem Payload.store_of_number? {p q : Payload} {signed : Bool} {width : Nat} (shape : q.shape = p.shape)
    (word : p.shape.layout = .word signed width) (le : width ≤ 128) {x y : Wide}
    (found : p.number? = some (.int x)) (same : y.setWidth width = x.setWidth width) :
    q.store (.int y) = p := by
  obtain ⟨shape, data⟩ := p
  obtain ⟨shape', data'⟩ := q
  obtain rfl := shape
  have stored : shape'.layout.store? (.int y) = some data :=
    Layout.store?_of_number? word le found same
  unfold store
  simp only [stored]

/-! ## §2 Types that texts pass through -/

namespace DataType

/-- The values of `t` pass through text that is read at `d`: a type of words, wide enough for them. -/
structure Fits (t d : DataType) : Prop where
  integral : d.belongsAny [.int, .bit] = true
  notBoolean : d.isBoolean = false
  wide : t.belongsAny [.int, .bit, .char] = true ∧ t.bitWidth ≤ d.bitWidth ∨
    t.belongs .date = true ∧ d.bitWidth = 64

variable {t d : DataType}

/-- Dates are words of 64 bits, whatever their nominal width. -/
theorem Fits.layout (fits : t.Fits d) (notBoolean : t.isBoolean = false) :
    ∃ signed width, t.layout = .word signed width ∧ width ≤ d.bitWidth := by
  rcases fits.wide with ⟨word, le⟩ | ⟨date, eq⟩
  · have each : ∀ t ∈ all, t.belongsAny [.int, .bit, .char] = true → t.isBoolean = false →
        t.layout = .word t.isSigned t.bitWidth := by decide
    exact ⟨_, _, each t t.mem_all word notBoolean, le⟩
  · have each : ∀ t ∈ all, t.belongs .date = true → t.layout = .word true 64 := by decide
    exact ⟨true, 64, each t t.mem_all date, Nat.le_of_eq eq.symm⟩

theorem Fits.convertible (fits : t.Fits d) :
    t.belongsAny [.elementary, .char] = true ∧ t.isTarget = true ∧ t.isCharString = false := by
  have each : ∀ t ∈ all, t.belongsAny [.int, .bit, .char] = true ∨ t.belongs .date = true →
      t.belongsAny [.elementary, .char] = true ∧ t.isTarget = true ∧ t.isCharString = false := by decide
  exact each t t.mem_all (fits.wide.imp And.left And.left)

theorem convertible_of_isCharString {s : DataType} (string : s.isCharString = true) :
    s.belongsAny [.elementary, .char] = true ∧ s.isTarget = true := by
  cases s <;> first | exact ⟨rfl, rfl⟩ | cases string

end DataType

/-! ## §3 One conversion -/

namespace Operator

variable {profile : LiteralProfile} {s target : DataType} {a value : Value}

/-- A conversion of an operand that it takes stops only where there is no value for the target. -/
theorem run_convert_eq (wf : a.WellFormed) (elementary : a.type.belongsAny [.elementary, .char] = true)
    (isTarget : target.isTarget = true) (profile : LiteralProfile) (result : Value) :
    (convert profile target a).run result =
      match converted profile target a with
      | .ok value => .ok () value
      | .error fault => .error fault result := by
  have checked : a.require [.elementary, .char] = .ok () := wf.require_iff.mpr elementary
  have passed : Fault.typeNotDefined.when (!target.isTarget) = .ok () := by
    rw [isTarget]
    rfl
  unfold convert
  rw [Program.run_check_of_ok checked, Program.run_check_of_ok passed]
  cases converted profile target a <;> rfl

theorem run_convert (wf : a.WellFormed) (elementary : a.type.belongsAny [.elementary, .char] = true)
    (isTarget : target.isTarget = true) (found : converted profile target a = .ok value)
    (result : Value) : (convert profile target a).run result = .ok () value := by
  rw [run_convert_eq wf elementary isTarget, found]

/-- The text of a value that is no string. -/
theorem converted_toString (profile : LiteralProfile) (plain : a.text? = none)
    (string : s.isCharString = true) :
    converted profile s a = .ok (.ofText (String.ofList a.toChars) (s = .wstring) false) := by
  unfold converted
  rw [plain]
  exact if_pos string

/-- Text is read as a literal. -/
theorem converted_text (profile : LiteralProfile) (cs : List Char) (notString : target.isCharString = false)
    (wide : Bool) : converted profile target (.ofText (String.ofList cs) wide false) =
      (Literal.parse cs profile).map (·.retype target) := by
  show ofText (.ofString (String.ofList cs) false) target profile = _
  unfold ofText
  rw [if_neg (Bool.eq_false_iff.mp notString)]
  show (Literal.parse (String.ofList cs).toList profile).map (·.retype target) = _
  rw [String.toList_ofList]

theorem converted_ofText {cs : List Char} (read : Literal.parse cs profile = .ok value)
    (notString : target.isCharString = false) (wide : Bool) :
    converted profile target (.ofText (String.ofList cs) wide false) = .ok (value.retype target) := by
  rw [converted_text profile cs notString, read]
  rfl

theorem type_ofText (content : String) (string : s.isCharString = true) :
    (Value.ofText content (s = .wstring) false).type = s := by
  cases s <;> first | rfl | cases string

end Operator

/-! ## §4 Text that is read back -/

theorem Layout.text?_word {l : Layout} {signed : Bool} {width : Nat} (word : l = .word signed width)
    (data : l.Carrier) : l.text? data = none ∧ l.duration? data = none := by
  subst word
  exact ⟨rfl, rfl⟩

namespace Value

variable {v : Value} {profile : LiteralProfile}

theorem toChars_word {signed : Bool} {width : Nat} (notBoolean : v.type.isBoolean = false)
    (word : v.payload.shape.layout = .word signed width) :
    ∃ x, v.number? = some (.int x) ∧ v.toChars = Numeral.render x.toInt := by
  obtain ⟨w, found⟩ := Layout.number?_word word v.payload.data
  refine ⟨_, found, ?_⟩
  have noDuration : v.duration? = none := (Layout.text?_word word v.payload.data).2
  have number : v.number = .int (Layout.widen signed w) := by
    unfold Value.number
    rw [show v.number? = _ from found]
    rfl
  unfold toChars
  simp only [notBoolean, noDuration, number]
  rfl

/-- The text of a wide word is read at the type that a number without one falls to. -/
theorem parse_wide (x : Wide) {d : DataType}
    (target : Literal.numericType? none (Literal.fallback profile (Numeral.render x.toInt)) = some d) :
    Literal.parse (Numeral.render x.toInt) profile = .ok (ofNumber d (.int x)) := by
  have same : Number.ofInt x.toInt = .int x := congrArg Number.int BitVec.ofInt_toInt
  rw [← same]
  exact Literal.parse_render (BitVec.le_toInt x) (Int.le_sub_one_of_lt BitVec.toInt_lt) target

theorem eq_of_digit {x : Wide}
    (digit : Numeral.render x.toInt = ['0'] ∨ Numeral.render x.toInt = ['1']) : x = 0 ∨ x = 1 := by
  have back := Numeral.integer?_render x.toInt
  rcases digit with zero | one
  · rw [zero] at back
    exact Or.inl (BitVec.eq_of_toInt_eq (Option.some.inj back).symm)
  · rw [one] at back
    exact Or.inr (BitVec.eq_of_toInt_eq (Option.some.inj back).symm)

/-- A number that went through a type keeps the bits for which the type has room. -/
theorem payload_through {d : DataType} (integral : d.belongsAny [.int, .bit] = true)
    (notBoolean : d.isBoolean = false) (x : Wide) (t : DataType) :
    ∃ y, ((ofNumber d (.int x)).retype t).payload = (ofNumber t (.int y)).payload ∧
      ∀ width ≤ d.bitWidth, y.setWidth width = x.setWidth width := by
  by_cases same : t = d
  case pos =>
    refine ⟨x, ?_, fun _ _ => rfl⟩
    rw [same]
    exact congrArg Value.payload (retype_self _)
  case neg =>
    -- Stored in `d` the number loses its high bits, and shows others when it is taken out again.
    have word : d.IsWord := Literal.isWord_of_integral integral notBoolean
    have found := number?_setNumber_word (v := .zero d) word (.int x)
    have each : ∀ d ∈ DataType.all, d.belongsAny [.int, .bit] = true →
        d.belongsAny [.num, .bit, .magnitude, .char] = true := by decide
    have carries : (ofNumber d (.int x)).carriesNumber = true := by
      have wf := (wellFormed_zero d).setNumber (.int x)
      exact Bool.or_eq_true_iff.mpr (Or.inr (wf.belongsAny (each d d.mem_all integral)))
    refine ⟨_, payload_retype same carries found, fun width le => ?_⟩
    have le' : width ≤ 128 := Nat.le_trans le (Nat.le_trans d.bitWidth_le (by decide))
    rw [Layout.setWidth_widen _ le le']
    exact BitVec.setWidth_setWidth_of_le x le

/-- Turned to a type that the text fits, what was read has the low bits of the number. -/
theorem read_number {t : DataType} (fits : t.Fits profile.integerType)
    (notBoolean : t.isBoolean = false) (x : Wide) :
    ∃ u y, Literal.parse (Numeral.render x.toInt) profile = .ok u ∧ u.Unflagged ∧
      (u.retype t).payload = (ofNumber t (.int y)).payload ∧
      ∀ width ≤ profile.integerType.bitWidth, y.setWidth width = x.setWidth width := by
  by_cases digit : Numeral.render x.toInt = ['0'] ∨ Numeral.render x.toInt = ['1']
  case pos =>
    -- The text of zero or one is a truth value, and all bits of the number are in it.
    have target : Literal.numericType? none (Literal.fallback profile (Numeral.render x.toInt)) =
        some .bool := by
      unfold Literal.fallback
      rw [if_pos digit]
      rfl
    have found : (ofNumber .bool (.int x)).number? = some (.int x) := by
      rcases eq_of_digit digit with rfl | rfl <;> rfl
    have other : t ≠ .bool := by
      rintro rfl
      cases notBoolean
    exact ⟨_, x, parse_wide x target, unflagged_ofNumber .bool _, payload_retype other rfl found,
      fun _ _ => rfl⟩
  case neg =>
    have target : Literal.numericType? none (Literal.fallback profile (Numeral.render x.toInt)) =
        some profile.integerType := by
      have each : ∀ d ∈ DataType.all, d.belongsAny [.int, .bit] = true →
          Literal.numericType? none d = some d := by decide
      unfold Literal.fallback
      rw [if_neg digit]
      exact each _ (DataType.mem_all _) fits.integral
    obtain ⟨y, turned, low⟩ := payload_through fits.integral fits.notBoolean x t
    exact ⟨_, y, parse_wide x target, unflagged_ofNumber _ _, turned, low⟩

theorem exists_flag (wf : v.WellFormed) (boolean : v.type.isBoolean = true) :
    ∃ on : Bool, v.payload = ⟨.bool, on⟩ := by
  have shape : v.payload.shape = .bool := by
    rw [wf.shape]
    cases type : v.type <;> rw [type] at boolean <;> first | rfl | cases boolean
  generalize v.payload = p at shape
  obtain ⟨held, data⟩ := p
  obtain rfl : held = .bool := shape
  exact ⟨data, rfl⟩

/-- The text of a boolean is a word of its own, which no profile is asked about. -/
theorem read_boolean (boolean : v.type.isBoolean = true) {on : Bool} (content : v.payload = ⟨.bool, on⟩) :
    ∃ u, Literal.parse v.toChars profile = .ok u ∧ u.Unflagged ∧
      (u.retype v.type).payload = v.payload := by
  have truth : v.isTrue = on := by
    unfold isTrue Value.number?
    rw [content]
    cases on <;> rfl
  have read : Literal.parse v.toChars profile = .ok (ofNumber .bool (.ofBool on)) := by
    unfold toChars
    rw [if_pos boolean, truth]
    cases on with
    | true =>
      have parts : Literal.classify "TRUE".toList = .ok ⟨.boolean, none, ['1']⟩ := by decide +kernel
      exact Literal.parse_of_value? parts rfl
    | false =>
      have parts : Literal.classify "FALSE".toList = .ok ⟨.boolean, none, ['0']⟩ := by decide +kernel
      exact Literal.parse_of_value? parts rfl
  refine ⟨_, read, unflagged_ofNumber .bool _, ?_⟩
  rw [content]
  cases type : v.type <;> rw [type] at boolean <;> cases boolean <;> cases on <;> rfl

/-- The text of a value that fits, read and turned back, has the content of the value. -/
theorem read_toChars (wf : v.WellFormed) (fits : v.type.Fits profile.integerType) :
    v.text? = none ∧ ∃ u, Literal.parse v.toChars profile = .ok u ∧ u.Unflagged ∧
      (u.retype v.type).payload = v.payload := by
  cases boolean : v.type.isBoolean with
  | true =>
    obtain ⟨on, content⟩ := exists_flag wf boolean
    refine ⟨?_, read_boolean boolean content⟩
    unfold Value.text?
    rw [content]
    rfl
  | false =>
    -- What the text lost in the type of the profile, the content never had.
    obtain ⟨signed, width, layout, le⟩ := fits.layout boolean
    have word : v.payload.shape.layout = .word signed width := by
      rw [wf.shape]
      exact layout
    have le' : width ≤ 128 :=
      Nat.le_trans le (Nat.le_trans profile.integerType.bitWidth_le (by decide))
    obtain ⟨x, found, written⟩ := toChars_word boolean word
    obtain ⟨u, y, read, plain, turned, low⟩ := read_number fits boolean x
    refine ⟨(Layout.text?_word word v.payload.data).1, u, written ▸ read, plain, ?_⟩
    rw [turned]
    exact Payload.store_of_number? wf.shape.symm word le' found (low width le)

end Value

/-! ## §5 There and back -/

/-- Turned to text and, under a profile whose type is wide enough, back to its type, a value is as it
was but for the flags. -/
theorem Operator.convert_back {v : Value} (wf : v.WellFormed) {profile : LiteralProfile}
    (fits : v.type.Fits profile.integerType) {s : DataType} (string : s.isCharString = true)
    (first : LiteralProfile) (result result' : Value) :
    ∃ text back, (convert first s v).run result = .ok () text ∧ text.type = s ∧
      (convert profile v.type text).run result' = .ok () back ∧ back.Alike v ∧ back.Unflagged := by
  obtain ⟨elementary, isTarget, notString⟩ := fits.convertible
  obtain ⟨textElementary, textTarget⟩ := DataType.convertible_of_isCharString string
  obtain ⟨plain, u, read, unflagged, content⟩ := Value.read_toChars wf fits
  -- The text is a string, and as such an operand for the way back.
  have textWf := Value.closed_wellFormed.ofText (String.ofList v.toChars) (s = .wstring) false
  have textType := type_ofText (String.ofList v.toChars) string
  rw [← textType] at textElementary
  have written := converted_toString first plain string
  have there := run_convert wf elementary textTarget written
  have back := run_convert textWf textElementary isTarget
    (converted_ofText read notString (s = .wstring))
  refine ⟨_, u.retype v.type, there result, textType, back result', ?_, unflagged.retype _⟩
  have backWf : (u.retype v.type).WellFormed := (Value.closed_wellFormed.parse read).retype _
  refine ⟨Value.type_retype u v.type, ?_, content⟩
  rw [backWf.categories, wf.categories, Value.type_retype]

/-- The greatest LWORD passes through LINT, where its text reads as minus one. -/
theorem Operator.convert_back_narrowed :
    ∃ v text back : Value, v = .ofNumber .lword (.ofInt 18446744073709551615) ∧
      (convert {} .string v).run .null = .ok () text ∧ text.type = .string ∧
      (convert { integerType := .lint } .lword text).run .null = .ok () back ∧ back.Alike v ∧
      back.Unflagged :=
  have fits : DataType.Fits .lword .lint := ⟨rfl, rfl, Or.inl ⟨rfl, Nat.le_refl 64⟩⟩
  have wf := (Value.wellFormed_zero .lword).setNumber (.ofInt 18446744073709551615)
  have ⟨text, back, rest⟩ :=
    @convert_back _ wf { integerType := .lint } fits .string rfl {} .null .null
  ⟨_, text, back, rfl, rest⟩

end Plc
