import Plc.Proofs.Literal.Classify
import Plc.Proofs.Literal.Meaning
import Plc.Proofs.Value.Word

/-!
# Integers in literals

An integer is written in decimal under an optional sign, or without a sign after the mark of a radix.
Underscores among the digits stand for nothing, and letters count alike in either case. Whatever the
spelling, a literal that names its type denotes the integer narrowed to that type.

Main statements:

* `Spells.natural?`: reading a spelling gives the number that it stands for.
* `Written.value?_ofRest`: the value of a numeral behind the name of a type.
* `parse_typed`: the whole literal, for every spelling of every integer of 128 bits.
* `parse_render`: plain decimal text, whose type a profile decides.
-/

namespace Plc.Literal

/-! ## §1 Spellings -/

/-- The character is the digit `d` of the radix, in either letter case. -/
def DigitOf (radix : Nat) (c : Char) (d : Nat) : Prop :=
  d < radix ∧ (c = d.digitChar ∨ c = d.digitChar.toUpper)

/-- Digits of a radix, with underscores before, between and after them, and the number that the digits
stand for. -/
inductive Spells (radix : Nat) : List Char → Nat → Prop where
  | first {c : Char} {d : Nat} : DigitOf radix c d → Spells radix [c] d
  | digit {cs : List Char} {n : Nat} {c : Char} {d : Nat} :
      Spells radix cs n → DigitOf radix c d → Spells radix (cs ++ [c]) (n * radix + d)
  | leading {cs : List Char} {n : Nat} : Spells radix cs n → Spells radix ('_' :: cs) n
  | trailing {cs : List Char} {n : Nat} : Spells radix cs n → Spells radix (cs ++ ['_']) n

/-- An integer as it is written behind the hash of a type. -/
inductive Written : List Char → Int → Prop where
  | unsigned {cs : List Char} {n : Nat} : Spells 10 cs n → Written cs n
  | plus {cs : List Char} {n : Nat} : Spells 10 cs n → Written ('+' :: cs) n
  | minus {cs : List Char} {n : Nat} : Spells 10 cs n → Written ('-' :: cs) (-n)
  | binary {cs : List Char} {n : Nat} : Spells 2 cs n → Written ('2' :: '#' :: cs) n
  | octal {cs : List Char} {n : Nat} : Spells 8 cs n → Written ('8' :: '#' :: cs) n
  | hexadecimal {cs : List Char} {n : Nat} : Spells 16 cs n → Written ('1' :: '6' :: '#' :: cs) n

variable {radix n d : Nat} {c : Char} {cs body : List Char}

theorem DigitOf.toUpper (digit : DigitOf radix c d) (le : radix ≤ 16) :
    c.toUpper = d.digitChar.toUpper := by
  have twice : ∀ d < 16, (Nat.digitChar d).toUpper.toUpper = (Nat.digitChar d).toUpper := by decide
  rcases digit.2 with rfl | rfl
  · rfl
  · exact twice d (Nat.lt_of_lt_of_le digit.1 le)

theorem DigitOf.digit? (digit : DigitOf radix c d) (le : radix ≤ 16) :
    Numeral.digit? radix c.toUpper = some d := by
  have value : ∀ d < 16, Numeral.digitValue? (Nat.digitChar d).toUpper = some d := by decide
  unfold Numeral.digit?
  rw [digit.toUpper le, value d (Nat.lt_of_lt_of_le digit.1 le)]
  exact Option.filter_eq_some_iff.mpr ⟨rfl, decide_eq_true digit.1⟩

/-- A digit is no underscore: an underscore has no value. -/
theorem DigitOf.ne_underscore (digit : DigitOf radix c d) (le : radix ≤ 16) : c.toUpper ≠ '_' := by
  intro same
  have read := digit.digit? le
  rw [same] at read
  cases Option.mem_filter_iff.mp read |>.1

/-! ## §2 Reading a spelling -/

theorem digits?_append (radix acc : Nat) (cs : List Char) (c : Char) :
    Numeral.digits? radix acc (cs ++ [c]) =
      (Numeral.digits? radix acc cs).bind fun m =>
        (Numeral.digit? radix c).map fun d => m * radix + d := by
  induction cs generalizing acc with
  | nil =>
    cases found : Numeral.digit? radix c with
    | none => simp [Numeral.digits?, found]
    | some d => simp [Numeral.digits?, found]
  | cons c rest ih =>
    simp only [List.cons_append, Numeral.digits?, ih, Option.bind_assoc]

theorem dropUnderscores_append (cs ds : List Char) :
    dropUnderscores (cs ++ ds) = dropUnderscores cs ++ dropUnderscores ds := List.filter_append ..

theorem dropUnderscores_self (c : Char) (other : c ≠ '_') : dropUnderscores [c] = [c] := by
  simp [dropUnderscores, other]

namespace Spells

/-- The digits of a spelling in upper case, with the underscores gone. -/
theorem read (spells : Spells radix cs n) (le : radix ≤ 16) :
    Numeral.digits? radix 0 (dropUnderscores (Text.upper cs)) = some n ∧
      dropUnderscores (Text.upper cs) ≠ [] := by
  induction spells with
  | @first c d digit =>
    rw [show Text.upper [c] = [c.toUpper] from rfl,
      dropUnderscores_self _ (digit.ne_underscore le)]
    simp [Numeral.digits?, digit.digit? le]
  | @digit cs n c d _ digit ih =>
    rw [Text.upper_append, show Text.upper [c] = [c.toUpper] from rfl, dropUnderscores_append,
      dropUnderscores_self _ (digit.ne_underscore le), digits?_append, ih.1, digit.digit? le]
    simp
  | leading _ ih => exact ih
  | trailing _ ih =>
    rw [Text.upper_append, dropUnderscores_append, show dropUnderscores (Text.upper ['_']) = [] from rfl,
      List.append_nil]
    exact ih

theorem natural? (spells : Spells radix cs n) (le : radix ≤ 16) :
    Numeral.natural? radix (dropUnderscores (Text.upper cs)) = some n := by
  obtain ⟨read, some⟩ := spells.read le
  unfold Numeral.natural?
  rw [if_neg (by simpa using some), read]

/-- What a spelling consists of. -/
theorem characters (spells : Spells radix cs n) :
    ∀ c ∈ cs, c = '_' ∨ ∃ d, DigitOf radix c d := by
  induction spells with
  | first digit =>
    intro c mem
    rw [List.mem_singleton.mp mem]
    exact Or.inr ⟨_, digit⟩
  | digit _ digit ih =>
    intro c mem
    rcases List.mem_append.mp mem with before | last
    · exact ih c before
    · rw [List.mem_singleton.mp last]
      exact Or.inr ⟨_, digit⟩
  | leading _ ih =>
    intro c mem
    rcases List.mem_cons.mp mem with rfl | after
    · exact Or.inl rfl
    · exact ih c after
  | trailing _ ih =>
    intro c mem
    rcases List.mem_append.mp mem with before | last
    · exact ih c before
    · exact Or.inl (List.mem_singleton.mp last)

theorem notBlank (spells : Spells radix cs n) (le : radix ≤ 16) :
    ∀ c ∈ Text.upper cs, Text.isBlank c = false := by
  have each : ∀ d < 16, Text.isBlank (Nat.digitChar d).toUpper = false := by decide
  intro c raised
  obtain ⟨c, mem, rfl⟩ := List.mem_map.mp raised
  rcases spells.characters c mem with rfl | ⟨d, digit⟩
  · decide
  · rw [digit.toUpper le]
    exact each d (Nat.lt_of_lt_of_le digit.1 le)

/-- A digit of ten is no letter, so raising it leaves it a digit. -/
theorem isDigit_or_underscore (spells : Spells 10 cs n) :
    ∀ c ∈ Text.upper cs, c.isDigit = true ∨ c = '_' := by
  have each : ∀ d < 10, (Nat.digitChar d).toUpper.isDigit = true := by decide
  intro c raised
  obtain ⟨c, mem, rfl⟩ := List.mem_map.mp raised
  rcases spells.characters c mem with rfl | ⟨d, digit⟩
  · exact Or.inr rfl
  · rw [digit.toUpper (by decide)]
    exact Or.inl (each d digit.1)

theorem isDigit (spells : Spells 10 cs n) :
    ∀ c ∈ dropUnderscores (Text.upper cs), c.isDigit = true := by
  intro c mem
  obtain ⟨mem, other⟩ := List.mem_filter.mp mem
  rcases spells.isDigit_or_underscore c mem with digit | rfl
  · exact digit
  · cases other

end Spells

/-! ## §3 Decimal text -/

/-- Digits and some other characters only. -/
def Consists (others cs : List Char) : Prop := ∀ c ∈ cs, c.isDigit = true ∨ c ∈ others

namespace Consists

variable {others cs : List Char}

theorem notMem (consists : Consists others cs) {c : Char} (noDigit : c.isDigit = false)
    (other : c ∉ others) : c ∉ cs := by
  intro mem
  rcases consists c mem with digit | sign
  · rw [noDigit] at digit
    cases digit
  · exact other sign

theorem dropUnderscores (consists : Consists others cs) :
    Consists others (Literal.dropUnderscores cs) := fun c mem => consists c (List.mem_filter.mp mem).1

theorem notBlank (consists : Consists others cs) (visible : others.all (!Text.isBlank ·) = true) :
    ∀ c ∈ cs, Text.isBlank c = false := by
  intro c mem
  rcases consists c mem with digit | other
  · exact Text.isBlank_of_isDigit digit
  · simpa using List.all_eq_true.mp visible c other

theorem upper (consists : Consists others cs)
    (raised : others.all (fun c => ¬(97 ≤ c.toNat ∧ c.toNat ≤ 122)) = true) : Text.upper cs = cs := by
  apply Text.upper_of_notLower
  intro c mem
  rcases consists c mem with digit | other
  · have bound := (Char.isDigit_iff_toNat.mp digit).2
    have most : c.toNat ≤ 57 := bound
    omega
  · exact of_decide_eq_true (List.all_eq_true.mp raised c other)

/-- Such text is no truth value, for that takes letters. -/
theorem plainBody (consists : Consists others cs) (noLetter : 'E' ∉ others) :
    plainBody cs = Literal.dropUnderscores cs := by
  have absent : 'E' ∉ Literal.dropUnderscores cs := consists.dropUnderscores.notMem (by decide) noLetter
  have notTrue : Literal.dropUnderscores cs ≠ "TRUE".toList := by
    intro same
    rw [same] at absent
    exact absent (by decide)
  have notFalse : Literal.dropUnderscores cs ≠ "FALSE".toList := by
    intro same
    rw [same] at absent
    exact absent (by decide)
  unfold Literal.plainBody
  simp only [if_neg notTrue, if_neg notFalse]

end Consists

/-- Digits, signs and underscores only. -/
def Decimal (cs : List Char) : Prop := ∀ c ∈ cs, c.isDigit = true ∨ c ∈ ['+', '-', '_']

theorem Decimal.consists {cs : List Char} (decimal : Decimal cs) : Consists ['+', '-', '_'] cs := decimal

theorem Decimal.cons {c : Char} {cs : List Char} (sign : c ∈ ['+', '-', '_']) (decimal : Decimal cs) :
    Decimal (c :: cs) := by
  intro d mem
  rcases List.mem_cons.mp mem with rfl | mem
  · exact Or.inr sign
  · exact decimal d mem

theorem Spells.decimal (spells : Spells 10 cs n) : Decimal (Text.upper cs) := by
  intro c mem
  rcases spells.isDigit_or_underscore c mem with digit | rfl
  · exact Or.inl digit
  · exact Or.inr (by decide)

theorem Decimal.notMem {cs : List Char} (decimal : Decimal cs) {c : Char} (noDigit : c.isDigit = false)
    (other : c ∉ ['+', '-', '_']) : c ∉ cs := decimal.consists.notMem noDigit other

theorem Decimal.dropUnderscores {cs : List Char} (decimal : Decimal cs) :
    Decimal (dropUnderscores cs) := decimal.consists.dropUnderscores

theorem Decimal.notBlank {cs : List Char} (decimal : Decimal cs) :
    ∀ c ∈ cs, Text.isBlank c = false := decimal.consists.notBlank (by decide)

theorem Decimal.upper {cs : List Char} (decimal : Decimal cs) : Text.upper cs = cs :=
  decimal.consists.upper (by decide)

theorem Decimal.plainBody {cs : List Char} (decimal : Decimal cs) :
    plainBody cs = Literal.dropUnderscores cs := decimal.consists.plainBody (by decide)

theorem Decimal.plainKind {cs : List Char} (decimal : Decimal cs) :
    plainKind cs = if cs = ['0'] ∨ cs = ['1'] then .boolean else .integer := by
  have noExponent : 'E' ∉ cs := decimal.notMem (by decide) (by decide)
  have noPoint : '.' ∉ cs := decimal.notMem (by decide) (by decide)
  unfold Literal.plainKind
  rw [if_neg noExponent, if_neg noPoint]

/-! ## §4 The integer of a body -/

theorem integerWithin?_eq {cs : List Char} {n : Int} (read : Numeral.integer? cs = some n)
    (least : leastInteger ≤ n) (most : n ≤ greatestInteger) :
    Numeral.integerWithin? leastInteger greatestInteger cs = some n := by
  unfold Numeral.integerWithin?
  rw [read]
  exact Option.filter_eq_some_iff.mpr ⟨rfl, by simp [least, most]⟩

/-- The type that decimal text is read at if it names none. -/
def fallback (profile : LiteralProfile) (cs : List Char) : DataType :=
  if cs = ['0'] ∨ cs = ['1'] then .bool else profile.integerType

theorem value?_decimal {cs : List Char} {n : Int} {explicit : Option DataType} {t : DataType}
    (decimal : Decimal cs) (read : Numeral.integer? cs = some n) (least : leastInteger ≤ n)
    (most : n ≤ greatestInteger) {profile : LiteralProfile}
    (target : numericType? explicit (fallback profile cs) = some t) :
    value? ⟨plainKind cs, explicit, cs⟩ profile = some (.ofNumber t (.ofInt n)) := by
  have within := integerWithin?_eq read least most
  unfold fallback at target
  rw [decimal.plainKind]
  -- The two kinds differ in nothing but the type of a literal that names none.
  split <;> rename_i which
  · rw [if_pos which] at target
    simp [value?, integer?, target, within]
  · rw [if_neg which] at target
    simp [value?, integer?, target, within]

/-- An integer that 128 bits do not hold has no value at any type. -/
theorem value?_decimal_of_beyond {cs : List Char} {n : Int} (decimal : Decimal cs)
    (read : Numeral.integer? cs = some n) (beyond : ¬(leastInteger ≤ n ∧ n ≤ greatestInteger))
    (explicit : Option DataType) (profile : LiteralProfile) :
    value? ⟨plainKind cs, explicit, cs⟩ profile = none := by
  have outside : Numeral.integerWithin? leastInteger greatestInteger cs = none := by
    unfold Numeral.integerWithin?
    rw [read]
    exact Option.filter_eq_none_iff.mpr fun m found => by
      cases found
      simpa using beyond
  have none (otherwise : DataType) : integer? explicit otherwise cs = Option.none := by
    simp [integer?, outside]
  rw [decimal.plainKind]
  split <;> exact none _

theorem radix?_eq {cs : List Char} {explicit : Option DataType} {otherwise t : DataType} {radix n : Nat}
    (read : Numeral.natural? radix cs = some n) (most : (n : Int) ≤ greatestInteger)
    (target : numericType? explicit otherwise = some t) :
    radix? radix explicit otherwise cs = some (.ofNumber t (.ofInt n)) := by
  simp [radix?, target, read, most]

theorem value?_ofRest_decimal {rest : List Char} {n : Int} {t : DataType} (decimal : Decimal rest)
    (read : Numeral.integer? (dropUnderscores rest) = some n) (least : leastInteger ≤ n)
    (most : n ≤ greatestInteger) (profile : LiteralProfile)
    (target : t.belongsAny [.magnitude, .bit] = true) :
    (ofRest (some t) rest).value? profile = some (.ofNumber t (.ofInt n)) := by
  have absent : '#' ∉ rest := decimal.notMem (by decide) (by decide)
  rw [ofRest_of_notMem _ absent, decimal.plainBody]
  exact value?_decimal decimal.dropUnderscores read least most (by simp [numericType?, target])

theorem value?_ofRest_radix {mark : List Char} {kind : LiteralKind} {radix : Nat}
    (mem : (mark, kind) ∈ radixMarks)
    (reads : ∀ explicit body profile, value? ⟨kind, explicit, body⟩ profile =
      radix? radix explicit profile.bitsType body)
    {cs : List Char} {n : Nat} (spells : Spells radix cs n) (le : radix ≤ 16)
    (most : (n : Int) ≤ greatestInteger) (profile : LiteralProfile) {t : DataType}
    (target : t.belongsAny [.magnitude, .bit] = true) :
    (ofRest (some t) (mark ++ Text.upper cs)).value? profile = some (.ofNumber t (.ofInt n)) := by
  rw [ofRest_radix (some t) mem, reads]
  exact radix?_eq (spells.natural? le) most (by simp [numericType?, target])

/-- A body under any spelling denotes its integer at the type in front, whatever the profile says. -/
theorem Written.value?_ofRest {body : List Char} {n : Int} (written : Written body n)
    (least : leastInteger ≤ n) (most : n ≤ greatestInteger) {t : DataType}
    (target : t.belongsAny [.magnitude, .bit] = true) (profile : LiteralProfile) :
    (ofRest (some t) (Text.upper body)).value? profile = some (.ofNumber t (.ofInt n)) := by
  -- Without a radix the body is decimal text under a sign, with one the digits stand behind its mark.
  cases written with
  | @unsigned cs n spells =>
    refine value?_ofRest_decimal spells.decimal ?_ least most profile target
    rw [Numeral.integer?, Numeral.splitSign_of_isDigit spells.isDigit]
    simp [spells.natural? (by decide)]
  | @plus cs n spells =>
    refine value?_ofRest_decimal (spells.decimal.cons (c := '+') (by decide)) ?_ least most profile target
    show Numeral.integer? ('+' :: dropUnderscores (Text.upper cs)) = some ↑n
    simp [Numeral.integer?, Numeral.splitSign, spells.natural? (by decide)]
  | @minus cs n spells =>
    refine value?_ofRest_decimal (spells.decimal.cons (c := '-') (by decide)) ?_ least most profile target
    show Numeral.integer? ('-' :: dropUnderscores (Text.upper cs)) = some (-↑n)
    simp [Numeral.integer?, Numeral.splitSign, spells.natural? (by decide)]
  | binary spells =>
    have mem : (['2', '#'], LiteralKind.base2) ∈ radixMarks := by decide
    exact value?_ofRest_radix mem (fun _ _ _ => rfl) spells (by decide) most profile target
  | octal spells =>
    have mem : (['8', '#'], LiteralKind.base8) ∈ radixMarks := by decide
    exact value?_ofRest_radix mem (fun _ _ _ => rfl) spells (by decide) most profile target
  | hexadecimal spells =>
    have mem : (['1', '6', '#'], LiteralKind.base16) ∈ radixMarks := by decide
    exact value?_ofRest_radix mem (fun _ _ _ => rfl) spells (by decide) most profile target

theorem Written.notBlank {body : List Char} {n : Int} (written : Written body n) :
    ∀ c ∈ Text.upper body, Text.isBlank c = false := by
  cases written with
  | unsigned spells => exact spells.notBlank (by decide)
  | plus spells | minus spells | binary spells | octal spells | hexadecimal spells =>
    simp only [Text.upper_cons, List.forall_mem_cons]
    refine ⟨by decide, ?_⟩
    first
      | exact spells.notBlank (by decide)
      | exact ⟨by decide, spells.notBlank (by decide)⟩
      | exact ⟨by decide, by decide, spells.notBlank (by decide)⟩

/-! ## §5 Literals that name their type -/

/-- The value has the type and stands for `n` as far as the type goes: wrapped to a type of words, and
different from zero for a boolean. -/
structure Denotes (v : Value) (t : DataType) (n : Int) : Prop where
  wf : v.WellFormed
  plain : v.Unflagged
  type : v.type = t
  toInt : t.isBoolean = false → v.toInt = t.wrap n
  isTrue : t.isBoolean = true → v.isTrue = decide (n ≠ 0)

theorem notBlank_name (t : DataType) : ∀ c ∈ t.name.toList, Text.isBlank c = false := by
  have each : ∀ t ∈ DataType.all, t.name.toList.all (!Text.isBlank ·) = true := by decide +kernel
  intro c mem
  simpa using List.all_eq_true.mp (each t t.mem_all) c mem

/-- No type of integers or bit strings has the name of a mark. -/
theorem unmarked_of_integral {t : DataType} (integral : t.belongsAny [.int, .bit] = true) :
    t.name.toList ++ ['#'] ∉ momentMarks.map (·.1) := by
  have each : ∀ t ∈ DataType.all, t.belongsAny [.int, .bit] = true →
      t.name.toList ++ ['#'] ∉ momentMarks.map (·.1) := by decide +kernel
  exact each t t.mem_all integral

theorem isWord_of_integral {t : DataType} (integral : t.belongsAny [.int, .bit] = true)
    (notBoolean : t.isBoolean = false) : t.IsWord := by
  have each : ∀ t ∈ DataType.all, t.belongsAny [.int, .bit] = true → t.isBoolean = false →
      t.layout = .word t.isSigned t.bitWidth := by decide
  exact each t t.mem_all integral notBoolean

theorem Number.isZero_ofInt {n : Int} (least : -2 ^ 127 ≤ n) (most : n < 2 ^ 127) :
    (Number.ofInt n).isZero = decide (n = 0) := by
  have back : (BitVec.ofInt 128 n).toInt = n :=
    (BitVec.toInt_ofInt n).trans (Int.bmod_eq_of_le (by omega) (by omega))
  show (BitVec.ofInt 128 n == 0) = decide (n = 0)
  rw [Bool.eq_iff_iff, beq_iff_eq, decide_eq_true_iff]
  constructor
  · intro zero
    rw [← back, zero]
    exact BitVec.toInt_zero
  · rintro rfl
    rfl

theorem denotes_ofNumber {t : DataType} (integral : t.belongsAny [.int, .bit] = true) {n : Int}
    (least : -2 ^ 127 ≤ n) (most : n < 2 ^ 127) : Denotes (.ofNumber t (.ofInt n)) t n where
  wf := (Value.wellFormed_zero t).setNumber _
  plain := Value.unflagged_ofNumber t _
  type := rfl
  toInt := by
    intro notBoolean
    exact (Value.Word.holds_ofNumber (isWord_of_integral integral notBoolean) n).toInt
  isTrue := by
    intro boolean
    have stored : (Value.ofNumber t (.ofInt n)).isTrue = !(Number.ofInt n).isZero := by
      have twice : ∀ b : Bool, (!(Number.ofBool b).isZero) = b := by decide
      cases t <;> cases boolean <;> exact twice _
    rw [stored, Number.isZero_ofInt least most]
    simp

/-- Whatever the letter case, the radix, the underscores and the blanks around it, a literal that names
a type of integers or bit strings denotes its integer at that type. -/
theorem parse_typed {t : DataType} (integral : t.belongsAny [.int, .bit] = true) {n : Int}
    (least : -2 ^ 127 ≤ n) (most : n < 2 ^ 127) {before name body after : List Char}
    (blank : ∀ c ∈ before, Text.isBlank c = true) (blank' : ∀ c ∈ after, Text.isBlank c = true)
    (named : Text.upper name = t.name.toList) (written : Written body n) :
    ∃ v, Denotes v t n ∧
      ∀ profile, parse (before ++ (name ++ '#' :: body ++ after)) profile = .ok v := by
  -- Integers and bit strings are among the types that a number may name.
  have target : t.belongsAny [.magnitude, .bit] = true := by
    cases t <;> first | rfl | cases integral
  have raised : Text.upper (name ++ '#' :: body) = t.name.toList ++ '#' :: Text.upper body := by
    rw [Text.upper_append, named]
    rfl
  have visible : ∀ c ∈ Text.upper (name ++ '#' :: body), Text.isBlank c = false := by
    rw [raised]
    intro c mem
    rcases List.mem_append.mp mem with front | back
    · exact notBlank_name t c front
    · rcases List.mem_cons.mp back with rfl | back
      · decide
      · exact written.notBlank c back
  have seen : Text.upper (Text.trim (before ++ (name ++ '#' :: body ++ after))) =
      t.name.toList ++ '#' :: Text.upper body := by
    rw [Text.trim_surrounded blank blank' (Text.notBlank_of_upper visible), raised]
  refine ⟨_, denotes_ofNumber integral least most, fun profile => ?_⟩
  refine parse_of_value? (classify_typed (unmarked_of_integral integral) seen) ?_
  exact written.value?_ofRest least (Int.le_sub_one_of_lt most) target profile

/-- SINT has no room for 511, which its eight bits show as minus one. -/
theorem parse_typed_narrowed :
    ∃ v : Value, v.type = .sint ∧ v.toInt = -1 ∧
      ∀ profile, parse " sint#16#_1f_F\t".toList profile = .ok v := by
  have one : DigitOf 16 '1' 1 := ⟨by decide, by decide⟩
  have lower : DigitOf 16 'f' 15 := ⟨by decide, by decide⟩
  have upper : DigitOf 16 'F' 15 := ⟨by decide, by decide⟩
  have digits : Spells 16 "_1f_F".toList 511 :=
    .leading ((Spells.first one).digit lower |>.trailing.digit upper)
  have blank {c : Char} (is : Text.isBlank c = true) : ∀ d ∈ [c], Text.isBlank d = true :=
    List.forall_mem_singleton.mpr is
  obtain ⟨v, denotes, read⟩ := @parse_typed .sint (by decide) 511 (by decide) (by decide) [' ']
    "sint".toList _ ['\t'] (blank (by decide)) (blank (by decide)) (by decide) (.hexadecimal digits)
  exact ⟨v, denotes.type, denotes.toInt rfl, read⟩

/-! ## §6 Decimal text as it is rendered -/

theorem decimal_render (n : Int) : Decimal (Numeral.render n) := by
  have digits : Decimal (Nat.toDigits 10 n.natAbs) := fun c mem =>
    Or.inl (Numeral.isDigit_toDigits n.natAbs c mem)
  unfold Numeral.render
  split
  case isTrue => exact digits.cons (by decide)
  case isFalse => exact digits

theorem render_ne_nil (n : Int) : Numeral.render n ≠ [] := by
  intro empty
  have read := Numeral.integer?_render n
  rw [empty] at read
  cases read

theorem dropUnderscores_of_notMem {cs : List Char} (absent : '_' ∉ cs) : dropUnderscores cs = cs :=
  List.filter_eq_self.mpr fun _ mem => decide_eq_true fun same => absent (same ▸ mem)

theorem underscore_notMem_render (n : Int) : '_' ∉ Numeral.render n := by
  have digits := @Nat.underscore_not_in_toDigits n.natAbs
  unfold Numeral.render
  split
  case isTrue => exact List.not_mem_cons_of_ne_of_not_mem (by decide) digits
  case isFalse => exact digits

/-- Decimal text without underscores is its own body. -/
theorem classify_decimal {cs : List Char} (decimal : Decimal cs) (some : cs ≠ [])
    (plain : '_' ∉ cs) : classify cs = .ok ⟨plainKind cs, none, cs⟩ := by
  have seen : Text.upper (Text.trim cs) = cs := by
    rw [Text.trim_of_notBlank decimal.notBlank, decimal.upper]
  have absent : '#' ∉ cs := decimal.notMem (by decide) (by decide)
  rw [classify_plain seen some absent, decimal.plainBody, dropUnderscores_of_notMem plain]

/-- Rendered text is read at the type that the profile gives, but that for zero and one at BOOL. -/
theorem parse_render {n : Int} (least : leastInteger ≤ n) (most : n ≤ greatestInteger)
    {profile : LiteralProfile} {t : DataType}
    (target : numericType? none (fallback profile (Numeral.render n)) = some t) :
    parse (Numeral.render n) profile = .ok (.ofNumber t (.ofInt n)) := by
  have decimal := decimal_render n
  have parts := classify_decimal decimal (render_ne_nil n) (underscore_notMem_render n)
  exact parse_of_value? parts (value?_decimal decimal (Numeral.integer?_render n) least most target)

end Plc.Literal
