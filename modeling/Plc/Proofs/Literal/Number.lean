import Mathlib.Data.List.Induction
import Plc.Proofs.Literal.Integer

/-!
# Bodies that are numbers

A literal of a number fails only for what stands in its body. Which bodies are numbers is said here by
the form of the text, for each kind: decimal digits under a sign, digits of a radix without one, and a
decimal fraction with an exponent or the name of a value that is no finite number. The readers accept
exactly these.

Main statements:

* `natural?_iff`, `integer?_iff`: digits and signed digits.
* `isSome_decimal_iff`, `isSome_real_iff`: decimal fractions.
* `value?_iff_isNumber`: a literal that names no type denotes a value if and only if its body is a number
  of its kind.
-/

namespace Plc.Literal

/-! ## §1 Forms of text -/

/-- Digits of a radix and nothing else, and the number that they stand for. -/
def Digits (radix : Nat) (cs : List Char) (n : Nat) : Prop := Spells radix cs n ∧ '_' ∉ cs

/-- Decimal digits under an optional sign, and the integer that they stand for. -/
inductive Signed : List Char → Int → Prop where
  | unsigned {cs : List Char} {n : Nat} : Digits 10 cs n → Signed cs n
  | plus {cs : List Char} {n : Nat} : Digits 10 cs n → Signed ('+' :: cs) n
  | minus {cs : List Char} {n : Nat} : Digits 10 cs n → Signed ('-' :: cs) (-n)

/-- The end of a decimal fraction: nothing, or a signed power of ten. -/
inductive Exponent : List Char → Prop where
  | absent : Exponent []
  | power {c : Char} {cs : List Char} {n : Int} (mark : c = 'e' ∨ c = 'E') : Signed cs n →
      Exponent (c :: cs)

/-- A decimal fraction without a sign. The point may come first or last, if there is one. -/
inductive Fraction : List Char → Prop where
  | whole {digits exponent : List Char} (some : digits ≠ []) :
      (∀ c ∈ digits, c.isDigit = true) → Exponent exponent → Fraction (digits ++ exponent)
  | point {before after exponent : List Char} (some : before ++ after ≠ []) :
      (∀ c ∈ before, c.isDigit = true) → (∀ c ∈ after, c.isDigit = true) → Exponent exponent →
        Fraction (before ++ '.' :: (after ++ exponent))

/-- What stands for a value that is no finite number, in any letter case. -/
def Special (cs : List Char) : Prop :=
  String.ofList (cs.map Char.toLower) ∈ ["inf", "infinity", "nan"]

/-- The text of a real. -/
inductive Real : List Char → Prop where
  | unsigned {cs : List Char} : Fraction cs ∨ Special cs → Real cs
  | plus {cs : List Char} : Fraction cs ∨ Special cs → Real ('+' :: cs)
  | minus {cs : List Char} : Fraction cs ∨ Special cs → Real ('-' :: cs)

variable {radix n d : Nat} {c : Char} {cs : List Char}

/-! ## §2 Digits -/

/-- Only characters of ASCII have a value. -/
theorem toNat_lt_of_digitValue? (found : Numeral.digitValue? c = some d) : c.toNat < 128 := by
  have ascii (last : Char) (le : c.toNat ≤ last.toNat) (bound : last.toNat < 128) : c.toNat < 128 :=
    Nat.lt_of_le_of_lt le bound
  unfold Numeral.digitValue? at found
  split at found
  case isTrue digit => exact ascii '9' (Char.isDigit_iff_toNat.mp digit).2 (by decide)
  case isFalse =>
    split at found
    case isTrue upper => exact ascii 'Z' (of_decide_eq_true upper).2 (by decide)
    case isFalse =>
      split at found
      case isTrue lower =>
        have range := Bool.and_eq_true_iff.mp lower
        exact ascii 'z' (of_decide_eq_true range.2) (by decide)
      case isFalse => cases found

theorem digit?_iff (le : radix ≤ 16) : Numeral.digit? radix c = some d ↔ DigitOf radix c d := by
  unfold Numeral.digit?
  rw [Option.filter_eq_some_iff]
  constructor
  · rintro ⟨found, lt⟩
    have lt : d < radix := of_decide_eq_true lt
    have each : ∀ code < 128, ∀ d < 16, Numeral.digitValue? (Char.ofNat code) = some d →
        Char.ofNat code = d.digitChar ∨ Char.ofNat code = d.digitChar.toUpper := by decide +kernel
    have here := each c.toNat (toNat_lt_of_digitValue? found) d (Nat.lt_of_lt_of_le lt le)
    rw [Char.ofNat_toNat] at here
    exact ⟨lt, here found⟩
  · rintro ⟨lt, written⟩
    have each : ∀ d < 16, Numeral.digitValue? (Nat.digitChar d) = some d ∧
        Numeral.digitValue? (Nat.digitChar d).toUpper = some d := by decide
    have values := each d (Nat.lt_of_lt_of_le lt le)
    refine ⟨?_, decide_eq_true lt⟩
    rcases written with rfl | rfl
    · exact values.1
    · exact values.2

theorem digits?_of_digits (le : radix ≤ 16) (digits : Digits radix cs n) :
    Numeral.digits? radix 0 cs = some n ∧ cs ≠ [] := by
  obtain ⟨spells, plain⟩ := digits
  induction spells with
  | first digit => simp [Numeral.digits?, (digit?_iff le).mpr digit]
  | @digit cs n c d spells digit ih =>
    have before := ih fun mem => plain (List.mem_append_left _ mem)
    rw [digits?_append, before.1, (digit?_iff le).mpr digit]
    simp
  | leading _ _ => simp at plain
  | trailing _ _ => simp at plain

/-- The last digit is read last, so the induction goes from the end of the text. -/
theorem digits_of_digits? (le : radix ≤ 16) (read : Numeral.digits? radix 0 cs = some n)
    (some : cs ≠ []) : Digits radix cs n := by
  induction cs using List.reverseRecOn generalizing n with
  | nil => exact absurd rfl some
  | append_singleton before c ih =>
    rw [digits?_append, Option.bind_eq_some_iff] at read
    obtain ⟨m, front, read⟩ := read
    obtain ⟨d, digit, rfl⟩ := Option.map_eq_some_iff.mp read
    have last : DigitOf radix c d := (digit?_iff le).mp digit
    have plain : c ≠ '_' := by
      rintro rfl
      cases Option.mem_filter_iff.mp digit |>.1
    by_cases empty : before = []
    case pos =>
      subst empty
      cases front
      rw [Nat.zero_mul, Nat.zero_add]
      exact ⟨.first last, by simp [plain.symm]⟩
    case neg =>
      obtain ⟨spells, absent⟩ := ih front empty
      exact ⟨.digit spells last, by simp [absent, plain.symm]⟩

theorem natural?_iff (le : radix ≤ 16) : Numeral.natural? radix cs = some n ↔ Digits radix cs n := by
  unfold Numeral.natural?
  constructor
  · intro read
    split at read
    case isTrue => cases read
    case isFalse present => exact digits_of_digits? le read (by simpa using present)
  · intro digits
    obtain ⟨read, some⟩ := digits?_of_digits le digits
    rw [if_neg (by simpa using some), read]

theorem Digits.isDigit (digits : Digits 10 cs n) : ∀ c ∈ cs, c.isDigit = true := by
  have each : ∀ d < 10, (Nat.digitChar d).isDigit = true ∧ (Nat.digitChar d).toUpper.isDigit = true := by
    decide
  intro c mem
  rcases digits.1.characters c mem with rfl | ⟨d, lt, rfl | rfl⟩
  · exact absurd mem digits.2
  · exact (each d lt).1
  · exact (each d lt).2

/-- A sign is split off, or there is none. -/
theorem splitSign_cases (cs : List Char) :
    (∃ rest, cs = '-' :: rest ∧ Numeral.splitSign cs = (true, rest)) ∨
      (∃ rest, cs = '+' :: rest ∧ Numeral.splitSign cs = (false, rest)) ∨
        Numeral.splitSign cs = (false, cs) := by
  unfold Numeral.splitSign
  split
  · exact Or.inl ⟨_, rfl, rfl⟩
  · exact Or.inr (Or.inl ⟨_, rfl, rfl⟩)
  · exact Or.inr (Or.inr rfl)

theorem integer?_iff {n : Int} : Numeral.integer? cs = some n ↔ Signed cs n := by
  constructor
  · intro read
    rcases splitSign_cases cs with ⟨rest, rfl, split⟩ | ⟨rest, rfl, split⟩ | split
    all_goals
      simp only [Numeral.integer?, split] at read
      obtain ⟨m, digits, rfl⟩ := Option.map_eq_some_iff.mp read
      rw [natural?_iff (by decide)] at digits
    · exact .minus digits
    · exact .plus digits
    · exact .unsigned digits
  · intro signed
    cases signed with
    | unsigned digits =>
      simp [Numeral.integer?, Numeral.splitSign_of_isDigit digits.isDigit,
        (natural?_iff (by decide)).mpr digits]
    | plus digits =>
      simp [Numeral.integer?, Numeral.splitSign, (natural?_iff (by decide)).mpr digits]
    | minus digits =>
      simp [Numeral.integer?, Numeral.splitSign, (natural?_iff (by decide)).mpr digits]

/-! ## §3 Decimal fractions -/

theorem isSome_exponent_iff : (Decimal.trailingExponent? cs).isSome = true ↔ Exponent cs := by
  rw [Option.isSome_iff_exists]
  constructor
  · rintro ⟨e, read⟩
    unfold Decimal.trailingExponent? at read
    split at read
    case h_1 => exact .absent
    case h_2 c rest =>
      split at read
      case isTrue mark => exact .power mark (integer?_iff.mp read)
      case isFalse => cases read
  · intro exponent
    cases exponent with
    | absent => exact ⟨0, rfl⟩
    | @power c cs n mark signed =>
      exact ⟨n, (if_pos mark).trans (integer?_iff.mpr signed)⟩

theorem Exponent.head (exponent : Exponent cs) : ∀ c, cs.head? = some c → c.isDigit = false := by
  intro c first
  cases exponent with
  | absent => cases first
  | power mark _ =>
    cases first
    rcases mark with rfl | rfl <;> decide

/-- A decimal is cut after its first run of digits, and if a point follows, after the next one. -/
theorem splitPoint_cases (cs : List Char) :
    ∃ before after rest, Decimal.splitPoint cs = (before, after, rest) ∧
      (∀ c ∈ before, c.isDigit = true) ∧ (∀ c ∈ after, c.isDigit = true) ∧
        (cs = before ++ '.' :: (after ++ rest) ∨ after = [] ∧ cs = before ++ rest) := by
  have run (ds : List Char) : ∀ c ∈ ds.takeWhile Char.isDigit, c.isDigit = true :=
    List.all_eq_true.mp List.all_takeWhile
  have parts (ds : List Char) : ds = ds.takeWhile Char.isDigit ++ ds.dropWhile Char.isDigit :=
    List.takeWhile_append_dropWhile.symm
  unfold Decimal.splitPoint
  split
  case h_1 rest behind =>
    refine ⟨_, _, _, rfl, run cs, run rest, Or.inl ?_⟩
    rw [← parts rest, ← behind]
    exact parts cs
  case h_2 =>
    exact ⟨_, _, _, rfl, run cs, by simp, Or.inr ⟨rfl, parts cs⟩⟩

theorem splitPoint_whole {digits exponent : List Char} (run : ∀ c ∈ digits, c.isDigit = true)
    (ends : Exponent exponent) : Decimal.splitPoint (digits ++ exponent) = (digits, [], exponent) := by
  obtain ⟨before, after⟩ := Text.span_append run ends.head
  unfold Decimal.splitPoint
  rw [before, after]
  cases ends with
  | absent => rfl
  | power mark _ => rcases mark with rfl | rfl <;> rfl

theorem splitPoint_point {before after exponent : List Char} (run : ∀ c ∈ before, c.isDigit = true)
    (run' : ∀ c ∈ after, c.isDigit = true) (ends : Exponent exponent) :
    Decimal.splitPoint (before ++ '.' :: (after ++ exponent)) = (before, after, exponent) := by
  have point : ∀ c, ('.' :: (after ++ exponent)).head? = some c → c.isDigit = false := by
    intro c first
    obtain rfl : '.' = c := Option.some.inj first
    decide
  obtain ⟨front, behind⟩ := Text.span_append run point
  obtain ⟨next, rest⟩ := Text.span_append run' ends.head
  unfold Decimal.splitPoint
  rw [front, behind]
  simp only [next, rest]

theorem isSome_decimal_of_parts {before after rest : List Char}
    (parts : Decimal.splitPoint cs = (before, after, rest)) :
    (Decimal.ofChars? cs).isSome = true ↔ before ++ after ≠ [] ∧ Exponent rest := by
  rw [← isSome_exponent_iff]
  unfold Decimal.ofChars?
  simp only [parts]
  by_cases empty : before ++ after = []
  case pos =>
    obtain ⟨rfl, rfl⟩ := List.append_eq_nil_iff.mp empty
    simp
  case neg =>
    have digits : ¬(before.isEmpty && after.isEmpty) = true := by
      simpa using empty
    rw [if_neg digits]
    simp [empty]

theorem isSome_decimal_iff : (Decimal.ofChars? cs).isSome = true ↔ Fraction cs := by
  constructor
  · intro read
    obtain ⟨before, after, rest, parts, run, run', text⟩ := splitPoint_cases cs
    obtain ⟨some, ends⟩ := (isSome_decimal_of_parts parts).mp read
    rcases text with rfl | ⟨rfl, rfl⟩
    · exact .point some run run' ends
    · exact .whole (by simpa using some) run ends
  · intro fraction
    cases fraction with
    | whole some run ends =>
      exact (isSome_decimal_of_parts (splitPoint_whole run ends)).mpr ⟨by simpa using some, ends⟩
    | point some run run' ends =>
      exact (isSome_decimal_of_parts (splitPoint_point run run' ends)).mpr ⟨some, ends⟩

/-! ## §4 Reals -/

/-- A fraction begins with a digit or the point, and a word with its first letter. -/
theorem not_signed (sign : c = '-' ∨ c = '+') : ¬(Fraction (c :: cs) ∨ Special (c :: cs)) := by
  rintro (fraction | special)
  · have parts : Decimal.splitPoint (c :: cs) = ([], [], c :: cs) := by
      rcases sign with rfl | rfl <;> rfl
    exact ((isSome_decimal_of_parts parts).mp (isSome_decimal_iff.mpr fraction)).1 rfl
  · have each : ∀ word ∈ ["inf", "infinity", "nan"], word.toList.head? ≠ some c.toLower := by
      rcases sign with rfl | rfl <;> decide +kernel
    exact each _ special (by simp)

theorem isSome_real_of_split {f : Format} {negative : Bool} {body : List Char}
    (split : Numeral.splitSign cs = (negative, body)) :
    (Binary.ofChars? cs : Option (Binary f)).isSome = true ↔ Fraction body ∨ Special body := by
  rw [← isSome_decimal_iff]
  unfold Binary.ofChars?
  simp only [split]
  cases Decimal.ofChars? body with
  | some d => simp
  | none =>
    unfold Special
    generalize String.ofList (body.map Char.toLower) = word
    dsimp only
    split <;> simp_all

theorem isSome_real_iff {f : Format} :
    (Binary.ofChars? cs : Option (Binary f)).isSome = true ↔ Real cs := by
  constructor
  · intro read
    rcases splitSign_cases cs with ⟨rest, rfl, split⟩ | ⟨rest, rfl, split⟩ | split
    · exact .minus ((isSome_real_of_split split).mp read)
    · exact .plus ((isSome_real_of_split split).mp read)
    · exact .unsigned ((isSome_real_of_split split).mp read)
  · intro real
    cases real with
    | unsigned body =>
      rcases splitSign_cases cs with ⟨rest, rfl, _⟩ | ⟨rest, rfl, _⟩ | split
      · exact absurd body (not_signed (Or.inl rfl))
      · exact absurd body (not_signed (Or.inr rfl))
      · exact (isSome_real_of_split split).mpr body
    | plus body => exact (isSome_real_of_split rfl).mpr body
    | minus body => exact (isSome_real_of_split rfl).mpr body

/-! ## §5 Literals without a type -/

/-- The kinds of numbers but for truth values. -/
def numberKinds : List LiteralKind := [.integer, .real, .realExp, .base2, .base8, .base16]

theorem ownType?_of_number {kind : LiteralKind} (number : kind ∈ numberKinds) : kind.ownType? = none := by
  have each : ∀ kind ∈ numberKinds, kind.ownType? = none := by decide
  exact each kind number

/-- The body is a number of the kind. Integers must have room in 128 bits, whatever the type is that they
are narrowed to. -/
def IsNumber : LiteralKind → List Char → Prop
  | .integer, body => ∃ n, Signed body n ∧ -2 ^ 127 ≤ n ∧ n < 2 ^ 127
  | .real, body | .realExp, body => Real body
  | .base2, body => ∃ n, Digits 2 body n ∧ n < 2 ^ 127
  | .base8, body => ∃ n, Digits 8 body n ∧ n < 2 ^ 127
  | .base16, body => ∃ n, Digits 16 body n ∧ n < 2 ^ 127
  | _, _ => False

section

variable {otherwise : DataType} {body : List Char}
  (target : otherwise.belongsAny [.magnitude, .bit] = true)
include target

theorem numericType?_none : numericType? none otherwise = some otherwise := by
  simp [numericType?, target]

theorem exists_integer?_iff :
    (∃ v, integer? none otherwise body = some v) ↔ IsNumber .integer body := by
  constructor
  · rintro ⟨v, found⟩
    simp only [integer?, Option.bind_eq_bind, Option.bind_eq_some_iff] at found
    obtain ⟨_, _, n, within, _⟩ := found
    obtain ⟨read, bounds⟩ := Option.filter_eq_some_iff.mp within
    obtain ⟨least, most⟩ := Bool.and_eq_true_iff.mp bounds
    exact ⟨n, integer?_iff.mp read, of_decide_eq_true least,
      Int.lt_of_le_sub_one (of_decide_eq_true most)⟩
  · rintro ⟨n, signed, least, most⟩
    have within := integerWithin?_eq (integer?_iff.mpr signed) least (Int.le_sub_one_of_lt most)
    exact ⟨.ofNumber otherwise (.ofInt n), by simp [integer?, numericType?_none target, within]⟩

theorem exists_real?_iff : (∃ v, real? none otherwise body = some v) ↔ Real body := by
  rw [← isSome_real_iff (f := .double), Option.isSome_iff_exists]
  constructor
  · rintro ⟨v, found⟩
    simp only [real?, Option.bind_eq_bind, Option.bind_eq_some_iff] at found
    obtain ⟨_, _, x, read, _⟩ := found
    exact ⟨x, read⟩
  · rintro ⟨x, read⟩
    exact ⟨.ofNumber otherwise (.real x), by simp [real?, numericType?_none target, read]⟩

theorem exists_radix?_iff (le : radix ≤ 16) :
    (∃ v, radix? radix none otherwise body = some v) ↔ ∃ n, Digits radix body n ∧ n < 2 ^ 127 := by
  constructor
  · rintro ⟨v, found⟩
    simp only [radix?, Option.bind_eq_bind, Option.bind_eq_some_iff] at found
    obtain ⟨_, _, n, read, found⟩ := found
    split at found
    case isTrue most =>
      have lt : (n : Int) < 2 ^ 127 := Int.lt_of_le_sub_one most
      exact ⟨n, (natural?_iff le).mp read, by exact_mod_cast lt⟩
    case isFalse => cases found
  · rintro ⟨n, digits, lt⟩
    have most : (n : Int) ≤ greatestInteger := Int.le_sub_one_of_lt (by exact_mod_cast lt)
    exact ⟨_, radix?_eq ((natural?_iff le).mpr digits) most (numericType?_none target)⟩

end

theorem value?_iff_isNumber {kind : LiteralKind} (number : kind ∈ numberKinds) {profile : LiteralProfile}
    (target : (profile.typeOf kind).belongsAny [.magnitude, .bit] = true) {body : List Char} :
    (∃ v, value? ⟨kind, none, body⟩ profile = some v) ↔ IsNumber kind body := by
  simp only [numberKinds, List.mem_cons, List.not_mem_nil, or_false] at number
  rcases number with rfl | rfl | rfl | rfl | rfl | rfl
  · exact exists_integer?_iff target
  · exact exists_real?_iff target
  · exact exists_real?_iff target
  · exact exists_radix?_iff target (by decide)
  · exact exists_radix?_iff target (by decide)
  · exact exists_radix?_iff target (by decide)

end Plc.Literal
