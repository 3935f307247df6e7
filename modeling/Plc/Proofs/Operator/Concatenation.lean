import Plc.Proofs.Operator.CharString

/-!
# Texts one after the other

CONCAT takes any number of strings and characters, in any mixture. They come off the stack in the order
opposite to that of pushing, and are turned around again before their texts are put together. All that is
looked at is the text of each operand and whether one of them is wide, so a string that was made of some
operands may stand for them among others.

Main statements:

* `Value.Joins.append`: the strings of two lists, joined, are a string of both.
* `Library.fills_concat`: what CONCAT makes of any list of texts.
* `Library.standard_concatenates`: one call or several, the length, and a string taken apart.
-/

namespace Plc

open Value

variable {s u v w : Value} {xs ys zs : List Value}

/-! ## §1 Joined texts -/

/-- A string type is known from whether it is the wide one. -/
theorem DataType.eq_of_string {t t' : DataType} (string : t.belongs .string = true)
    (string' : t'.belongs .string = true) (wide : t = .wstring ↔ t' = .wstring) : t = t' := by
  cases t <;> cases t' <;> simp_all [belongs, isCharString]

namespace Value

/-- A well-formed string or character. -/
structure AnyText (v : Value) : Prop where
  wf : v.WellFormed
  chars : v.type.belongs .chars = true

/-- The value is a wide string or a wide character. -/
def Wide (v : Value) : Prop := v.type = .wstring ∨ v.type = .wchar

instance (v : Value) : Decidable v.Wide := inferInstanceAs (Decidable (_ ∨ _))

/-- The value is a string of the texts of `xs`, one after the other, and is wide if one of them is. -/
structure Joins (u : Value) (xs : List Value) : Prop where
  wf : u.WellFormed
  string : u.type.belongs .string = true
  wide_iff : u.type = .wstring ↔ ∃ v ∈ xs, v.Wide
  text : u.text? = some (.ofString (String.ofList (xs.flatMap spelledText)) false)

theorem AnyString.anyText (string : s.AnyString) : s.AnyText :=
  ⟨string.wf, Bool.or_eq_true_iff.mpr (Or.inr string.string)⟩

theorem AnyText.belongsAny (text : v.AnyText) : v.belongsAny [.string, .char] = true := by
  have either : v.type.isCharacter = true ∨ v.type.isCharString = true :=
    Bool.or_eq_true_iff.mp text.chars
  refine text.wf.belongsAny (List.any_eq_true.mpr ?_)
  rcases either with character | string
  · exact ⟨.char, by simp, character⟩
  · exact ⟨.string, by simp, string⟩

theorem wide_of_string (string : s.type.belongs .string = true) : s.Wide ↔ s.type = .wstring := by
  have narrow : s.type ≠ .wchar := by
    intro wchar
    rw [wchar] at string
    cases string
  exact or_iff_left narrow

theorem spelledText_of_text? {t : CharString} (found : v.text? = some t) : v.spelledText = t.chars := by
  unfold spelledText
  rw [Payload.eq_of_text? found]

theorem TextLike.spelledText {cs : List Char} (like : u.TextLike s cs) : u.spelledText = cs := by
  rw [spelledText_of_text? like.text]
  exact String.toList_ofList

theorem joins_setText (wf : w.WellFormed) (xs : List Value) :
    (w.setText (String.ofList (xs.flatMap Value.spelledText)) (xs.any (·.Wide)) false).Joins xs := by
  have types (wide : Bool) : DataType.belongs (if wide then .wstring else .string) .string = true ∧
      ((if wide then .wstring else .string : DataType) = .wstring ↔ wide = true) := by
    cases wide <;> decide
  have type := type_retype w (if xs.any (·.Wide) then .wstring else .string)
  refine ⟨wf.setText _ _ _, ?_, ?_, rfl⟩
  · exact (congrArg (DataType.belongs · .string) type).trans (types _).1
  · show (w.retype _).type = .wstring ↔ _
    rw [type, (types _).2, List.any_eq_true]
    simp only [decide_eq_true_eq]

namespace Joins

theorem spelledText (joins : u.Joins xs) : u.spelledText = xs.flatMap Value.spelledText := by
  rw [spelledText_of_text? joins.text]
  exact String.toList_ofList

theorem chars (joins : u.Joins xs) : u.chars = xs.flatMap Value.spelledText := by
  unfold Value.chars
  rw [joins.text]
  exact String.toList_ofList

theorem length_chars (joins : u.Joins xs) :
    u.chars.length = (xs.map fun v => v.spelledText.length).sum := by
  rw [joins.chars, List.length_flatMap]

theorem anyString (joins : u.Joins xs) : u.AnyString := ⟨joins.wf, joins.string⟩

theorem anyText (joins : u.Joins xs) : u.AnyText := joins.anyString.anyText

theorem wide (joins : u.Joins xs) : u.Wide ↔ ∃ v ∈ xs, v.Wide :=
  (wide_of_string joins.string).trans joins.wide_iff

/-- The strings of two lists, joined, are a string of the one list behind the other. -/
theorem append (front : u.Joins ys) (back : v.Joins zs) (both : w.Joins [u, v]) : w.Joins (ys ++ zs) where
  wf := both.wf
  string := both.string
  wide_iff := by
    rw [both.wide_iff]
    simp only [List.mem_cons, List.not_mem_nil, or_false, exists_eq_left, front.wide, back.wide,
      List.mem_append, or_and_right, exists_or]
  text := by
    have texts : [u, v].flatMap Value.spelledText = (ys ++ zs).flatMap Value.spelledText := by
      rw [List.flatMap_cons, List.flatMap_singleton, front.spelledText, back.spelledText,
        List.flatMap_append]
    rw [both.text, texts]

/-- But for the flags, there is one string of the texts. -/
theorem alike (first : u.Joins xs) (second : v.Joins xs) : u.Alike v := by
  have type : u.type = v.type :=
    DataType.eq_of_string first.string second.string (first.wide_iff.trans second.wide_iff.symm)
  exact {
    type := type
    categories := by rw [first.wf.categories, second.wf.categories, type]
    payload := (Payload.eq_of_text? first.text).trans (Payload.eq_of_text? second.text).symm }

/-- Two strings of one type, joined, are of that type. -/
theorem type_eq {cs ds : List Char} (string : s.AnyString) (front : u.TextLike s cs)
    (back : v.TextLike s ds) (both : w.Joins [u, v]) : w.type = s.type := by
  apply DataType.eq_of_string both.string string.string
  have wide : u.Wide ↔ s.type = .wstring := by
    rw [wide_of_string (front.anyString string).string, front.type]
  have wide' : v.Wide ↔ s.type = .wstring := by
    rw [wide_of_string (back.anyString string).string, back.type]
  rw [both.wide_iff]
  simp only [List.mem_cons, List.not_mem_nil, or_false, exists_eq_or_imp, exists_eq_left, wide, wide', or_self]

end Joins

end Value

/-! ## §2 Runs -/

namespace Operator

/-- What comes off the stack is turned around. -/
theorem concat_run (some : xs ≠ []) (texts : ∀ v ∈ xs, v.AnyText) (result : Value) :
    concat.run ⟨result, .ofList xs⟩ =
      .ok () ⟨result.setText (String.ofList (xs.flatMap spelledText)) (xs.any (·.Wide)) false, .empty⟩ := by
  obtain ⟨first, rest, popped⟩ := List.exists_cons_of_ne_nil (List.reverse_ne_nil_iff.mpr some)
  have stack : OperandStack.ofList xs = ⟨first :: rest⟩ :=
    congrArg OperandStack.mk ((OperandStack.popOrder_ofList xs).trans popped)
  have pass : ∀ v ∈ first :: rest, v.belongsAny [.string, .char] = true := by
    intro v mem
    rw [← popped] at mem
    exact (texts v (List.mem_reverse.mp mem)).belongsAny
  have pushed : (first :: rest).reverse = xs := by rw [← popped, List.reverse_reverse]
  have wide : (first :: rest).any (fun v => v.type = .wstring || v.type = .wchar) = xs.any (·.Wide) := by
    rw [← pushed, List.any_reverse]
    exact congrArg (first :: rest).any (funext fun v => (Bool.decide_or _ _).symm)
  unfold concat
  rw [EStateM.run_bind, stack, Call.drainChecked_run pass]
  dsimp only
  rw [wide, pushed]
  exact Call.onResult_of_ok .empty rfl

theorem len_run (string : s.AnyString) (result : Value) :
    (len s).run result = .ok () ((result.retype .udint).setNumber (.ofInt s.chars.length)) := by
  unfold len
  rw [Program.run_check_of_ok string.require_eq]
  rfl

end Operator

/-! ## §3 Calls -/

namespace Library

open Operator

/-- What CONCAT, LEN, LEFT and RIGHT have to do with each other. -/
structure Concatenates (lib : Library) : Prop where
  /-- The texts are joined in the order of pushing, and their lengths add up. -/
  joins : ∀ xs, xs ≠ [] → (∀ v ∈ xs, v.AnyText) → lib.Fills "CONCAT" xs fun u =>
    u.Joins xs ∧ lib.Fills "LEN" [u] fun n =>
      n.type = .udint ∧ n.toInt = ((xs.map fun v => v.spelledText.length).sum % 2 ^ 32 : Nat)
  /-- It does not matter whether a list is joined at once or in two parts. -/
  splits : ∀ ys zs, ys ≠ [] → zs ≠ [] → (∀ v ∈ ys ++ zs, v.AnyText) →
    lib.Fills "CONCAT" ys fun front => lib.Fills "CONCAT" zs fun back =>
      lib.Fills "CONCAT" [front, back] fun u => lib.Fills "CONCAT" (ys ++ zs) (·.Alike u)
  /-- A string is joined of its first `n` characters and of its last ones. -/
  rejoins : ∀ s n k : Value, s.AnyString → n.AnyInt → k.AnyInt → 0 ≤ n.toInt →
    n.toInt ≤ s.chars.length → k.toInt = s.chars.length - n.toInt →
    lib.Fills "LEFT" [s, n] fun front => lib.Fills "RIGHT" [s, k] fun back =>
      lib.Fills "CONCAT" [front, back] fun u => u.type = s.type ∧ u.chars = s.chars

section Standard

variable (mode : PowerMode) (profile : LiteralProfile)

theorem fills_concat (some : xs ≠ []) (texts : ∀ v ∈ xs, v.AnyText) :
    (standard mode profile).Fills "CONCAT" xs (·.Joins xs) := by
  have found : (standard mode profile).find? "CONCAT" = Option.some (.variadic concat) :=
    find?_standard profile (by simp [standardEntries])
  intro result wf
  exact ⟨_, call_of_ok found (concat_run some texts result), joins_setText wf xs⟩

theorem fills_concat_pair (first : u.AnyText) (second : v.AnyText) :
    (standard mode profile).Fills "CONCAT" [u, v] (·.Joins [u, v]) := by
  have both : ∀ w ∈ [u, v], w.AnyText :=
    List.forall_mem_cons.mpr ⟨first, List.forall_mem_singleton.mpr second⟩
  exact fills_concat mode profile (List.cons_ne_nil _ _) both

theorem fills_len (string : s.AnyString) :
    (standard mode profile).Fills "LEN" [s] (·.Holds .udint s.chars.length) := by
  have found : (standard mode profile).find? "LEN" = some (.unary len) :=
    find?_standard profile (by simp [standardEntries])
  exact fills_fixed found #v[s] fun result wf =>
    ⟨_, len_run string result, wf.holds_setNumber (show DataType.udint.IsWord from rfl) _⟩

/-- **CONCAT.** Texts are joined in the order of pushing, at once or in parts. -/
theorem standard_concatenates : (standard mode profile).Concatenates where
  joins xs some texts := by
    refine (fills_concat mode profile some texts).mono fun u joins => ⟨joins, ?_⟩
    refine (fills_len mode profile joins.anyString).mono fun n holds => ⟨holds.type, ?_⟩
    rw [holds.toInt, joins.length_chars]
    rfl
  splits ys zs some some' texts := by
    have texts_front : ∀ v ∈ ys, v.AnyText := fun v mem => texts v (List.mem_append_left zs mem)
    have texts_back : ∀ v ∈ zs, v.AnyText := fun v mem => texts v (List.mem_append_right ys mem)
    refine (fills_concat mode profile some texts_front).mono fun front joins => ?_
    refine (fills_concat mode profile some' texts_back).mono fun back joins' => ?_
    refine (fills_concat_pair mode profile joins.anyText joins'.anyText).mono fun u both => ?_
    refine (fills_concat mode profile (List.append_ne_nil_of_left_ne_nil some zs) texts).mono ?_
    exact fun whole joined => joined.alike (joins.append joins' both)
  rejoins s n k string count count' least le rest := by
    have places : s.chars.length - k.toCount = n.toCount := by
      unfold toCount
      omega
    refine (fills_left mode profile string count).mono fun front like => ?_
    refine (fills_right mode profile string count').mono fun back like' => ?_
    rw [places] at like'
    have text := (like.anyString string).anyText
    have text' := (like'.anyString string).anyText
    refine (fills_concat_pair mode profile text text').mono fun u both => ?_
    refine ⟨both.type_eq string like like', ?_⟩
    rw [both.chars, List.flatMap_cons, List.flatMap_singleton, like.spelledText, like'.spelledText,
      List.take_append_drop]

/-- One wide character makes the string wide, and half of a surrogate pair adds nothing to it. -/
theorem standard_concatenates_wide :
    let lib := standard .power {}
    let foo := Value.ofText "foo" false true
    let sharp := Value.ofNumber .wchar (.ofInt 0xDF)
    let half := Value.ofNumber .wchar (.ofInt 0xD800)
    let int (n : Int) := Value.ofNumber .int (.ofInt n)
    (lib.Fills "CONCAT" [foo, sharp, half] fun u => u.type = .wstring ∧ u.chars = ['f', 'o', 'o', 'ß'] ∧
      lib.Fills "LEN" [u] (·.toInt = 4)) ∧
    (lib.Fills "CONCAT" [foo] fun front => lib.Fills "CONCAT" [sharp, half] fun back =>
      lib.Fills "CONCAT" [front, back] fun u => lib.Fills "CONCAT" [foo, sharp, half] (·.Alike u)) ∧
    lib.Fills "LEFT" [foo, int 1] fun front => lib.Fills "RIGHT" [foo, int 2] fun back =>
      lib.Fills "CONCAT" [front, back] fun u => u.type = foo.type ∧ u.chars = foo.chars := by
  intro lib foo sharp half int
  have law : lib.Concatenates := standard_concatenates .power {}
  have string : foo.AnyString := .ofText "foo" false true
  have number (n : Int) : (int n).AnyInt := .ofNumber rfl _
  have texts : ∀ v ∈ [foo] ++ [sharp, half], v.AnyText := by
    simp only [List.cons_append, List.nil_append, List.forall_mem_cons, List.not_mem_nil, false_imp_iff,
      implies_true, and_true]
    exact ⟨string.anyText, ⟨(wellFormed_zero .wchar).setNumber _, rfl⟩,
      ⟨(wellFormed_zero .wchar).setNumber _, rfl⟩⟩
  refine ⟨?_, law.splits [foo] [sharp, half] (by simp) (by simp) texts, ?_⟩
  · refine (law.joins [foo, sharp, half] (by simp) texts).mono fun u made => ?_
    obtain ⟨joins, counted⟩ := made
    refine ⟨joins.wide_iff.mpr ⟨sharp, by simp, Or.inr rfl⟩, joins.chars.trans (by decide +kernel), ?_⟩
    exact counted.mono fun n length => length.2.trans (by decide +kernel)
  · exact law.rejoins foo (int 1) (int 2) string (number 1) (number 2) (by decide +kernel)
      (by decide +kernel) (by decide +kernel)

end Standard

end Library

end Plc
