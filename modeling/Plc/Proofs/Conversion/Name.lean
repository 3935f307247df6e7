import Plc.Proofs.Library.Dispatch
import Plc.Proofs.Text
import Plc.Proofs.Value.Word

/-!
# The grammar of conversion names

A name that no operator has is the name of a conversion if, in upper case, it is a word for the kind of
conversion and a target type, or a source type, an underscore, such a word and a target type. The reader
does not try all ways to cut a name in this manner: it takes the words in a fixed order and cuts at the
first place of the first one that there is. The words contain one another, and types have underscores in
their spellings, so it is not plain that the cut is always at the right place.

It is, and this is seen from the *fields* of a name, the parts between its underscores. Some fields are
*marks*: BCD, TO and TRUNC. A word for a kind consists of marks, and no spelling of a type has one, with
or without blanks around it. The marks of a name that fits the grammar are then those of its word, in
their order, which tells the kind; and the word stands where the first mark is, which tells the cut.

Main statements:

* `DataType.ofName?_eq_some_iff`: the texts that are read as a type.
* `ConversionKind.not_infix_of_before`: the order in which the words are looked for.
* `Conversion.joinName_of_splitName?`, `Conversion.splitName?_joinName`: names are cut at their word.
* `Conversion.ofName?_eq_some_iff`: the names that are read as a conversion.
* `Library.call_unregistered`: calls of names that no operator has.
-/

namespace Plc

open Text

/-! ## §1 Spellings of types -/

namespace DataType

/-- The words for a type: its name, and for two of them a long form. -/
inductive Spelling : List Char → DataType → Prop where
  | name (t : DataType) : Spelling t.name.toList t
  | timeOfDay : Spelling "TIME_OF_DAY".toList .tod
  | dateAndTime : Spelling "DATE_AND_TIME".toList .dt

/-- The text is a word for the type, with blanks around it or none. -/
def Spelled (cs : List Char) (t : DataType) : Prop :=
  ∃ before word after, (∀ c ∈ before, isBlank c = true) ∧ (∀ c ∈ after, isBlank c = true) ∧
    Spelling word t ∧ cs = before ++ (word ++ after)

variable {cs word : List Char} {t t' : DataType}

theorem mem_spellings_iff : (word, t) ∈ spellings ↔ Spelling word t := by
  constructor
  · intro mem
    rcases List.mem_cons.mp mem with long | mem
    · cases long
      exact .timeOfDay
    rcases List.mem_cons.mp mem with long | mem
    · cases long
      exact .dateAndTime
    obtain ⟨named, _, same⟩ := List.mem_map.mp mem
    obtain ⟨rfl, rfl⟩ := Prod.mk.inj same
    exact .name _
  · rintro (_ | _ | _)
    · exact List.mem_cons_of_mem _ (List.mem_cons_of_mem _ (List.mem_map_of_mem t.mem_all))
    · exact List.mem_cons_self
    · exact List.mem_cons_of_mem _ List.mem_cons_self

/-- No word is listed for two types. -/
theorem find?_spellings : ∀ entry ∈ spellings, spellings.find? (·.1 = entry.1) = some entry := by
  decide +kernel

theorem spelling_iff : (spellings.find? (·.1 = word)).map (·.2) = some t ↔ Spelling word t := by
  constructor
  · intro found
    obtain ⟨⟨word', _⟩, first, rfl⟩ := Option.map_eq_some_iff.mp found
    have same := List.find?_some first
    rw [decide_eq_true_eq] at same
    subst same
    exact mem_spellings_iff.mp (List.mem_of_find?_eq_some first)
  · intro spelling
    rw [find?_spellings (word, t) (mem_spellings_iff.mpr spelling), Option.map_some]

theorem Spelling.visible (spelling : Spelling word t) : ∀ c ∈ word, isBlank c = false := by
  have each : ∀ entry ∈ spellings, entry.1.all (!isBlank ·) = true := by decide +kernel
  simpa using each (word, t) (mem_spellings_iff.mpr spelling)

theorem spelled_iff : Spelled cs t ↔ Spelling (trim cs) t := by
  constructor
  · rintro ⟨before, word, after, blank, blank', spelling, rfl⟩
    rwa [trim_surrounded blank blank' spelling.visible]
  · intro spelling
    obtain ⟨before, after, blank, blank', whole⟩ := exists_trim cs
    exact ⟨before, trim cs, after, blank, blank', spelling, whole⟩

/-- A text spells one type at most. -/
theorem Spelled.unique (spelled : Spelled cs t) (spelled' : Spelled cs t') : t = t' := by
  rw [spelled_iff, ← spelling_iff] at spelled spelled'
  exact Option.some.inj (spelled.symm.trans spelled')

/-- A text is read as the type that it spells in upper case. -/
theorem ofName?_eq_some_iff : ofName? cs = some t ↔ Spelled (upper cs) t := by
  rw [spelled_iff, trim_upper, ← spelling_iff]
  rfl

end DataType

/-! ## §2 Marks -/

namespace ConversionKind

/-- The word for a kind. -/
def word : ConversionKind → List Char
  | ofBcd => "BCD_TO_".toList
  | toBcd => "TO_BCD_".toList
  | truncate => "TRUNC_".toList
  | convert => "TO_".toList

/-- The fields of the word, each of which an underscore ends. -/
def marks : ConversionKind → List (List Char)
  | ofBcd => ["BCD".toList, "TO".toList]
  | toBcd => ["TO".toList, "BCD".toList]
  | truncate => ["TRUNC".toList]
  | convert => ["TO".toList]

/-- The kinds in the order in which their words are looked for. -/
def order : List ConversionKind := [ofBcd, toBcd, truncate, convert]

/-- The fields that words for kinds are made of. -/
def isMark (field : List Char) : Bool := field ∈ ["BCD".toList, "TO".toList, "TRUNC".toList]

variable (kind : ConversionKind)

theorem word_eq : kind.word = kind.marks.flatMap (· ++ ['_']) := by
  cases kind <;> rfl

theorem filter_marks : kind.marks.filter isMark = kind.marks := by
  cases kind <;> rfl

theorem fields_word_append (rest : List Char) :
    fields '_' (kind.word ++ rest) = kind.marks ++ fields '_' rest := by
  have absent : ∀ field ∈ kind.marks, '_' ∉ field := by
    cases kind <;> decide
  rw [word_eq, fields_flatMap absent]

/-- A word is looked for after those that are not contained in it: none of them has its marks within its
own. -/
theorem not_infix_of_before :
    ∃ before after, order = before ++ kind :: after ∧
      ∀ earlier ∈ before, ¬earlier.marks <:+: kind.marks := by
  cases kind with
  | ofBcd => exact ⟨[], _, rfl, by decide⟩
  | toBcd => exact ⟨[ofBcd], _, rfl, by decide⟩
  | truncate => exact ⟨[ofBcd, toBcd], _, rfl, by decide⟩
  | convert => exact ⟨[ofBcd, toBcd, truncate], _, rfl, by decide⟩

variable {kind}

/-- If the marks are those of one word, there are none in front of it. -/
theorem unmarked_of_plain {before after : List (List Char)}
    (plain : (before ++ (kind.marks ++ after)).filter isMark = kind.marks) :
    ∀ field ∈ before, (!isMark field) = true := by
  have length := congrArg List.length plain
  rw [List.filter_append, List.filter_append, filter_marks, List.length_append,
    List.length_append] at length
  have none : before.filter isMark = [] := List.length_eq_zero_iff.mp (by omega)
  simpa [List.filter_eq_nil_iff] using none

/-- If the marks are those of one word, the word stands where the first of them is. -/
theorem before_unique {before after before' after' : List (List Char)}
    (plain : (before ++ (kind.marks ++ after)).filter isMark = kind.marks)
    (same : before ++ (kind.marks ++ after) = before' ++ (kind.marks ++ after')) :
    before = before' := by
  have boundary (after : List (List Char)) :
      ∀ field, (kind.marks ++ after).head? = some field → (!isMark field) = false := by
    cases kind <;> rintro _ ⟨⟩ <;> rfl
  have cut := (span_append (unmarked_of_plain plain) (boundary after)).1
  rw [same] at plain cut
  exact cut.symm.trans (span_append (unmarked_of_plain plain) (boundary after')).1

end ConversionKind

open ConversionKind in
/-- Types are spelled without marks. -/
theorem DataType.Spelled.unmarked {cs : List Char} {t : DataType} (spelled : Spelled cs t) :
    (fields '_' cs).filter isMark = [] := by
  obtain ⟨before, word, after, blank, blank', spelling, rfl⟩ := spelled
  have visible := spelling.visible
  have unmarked : ∀ entry ∈ spellings, ∀ field ∈ fields '_' entry.1, isMark field = false := by
    decide +kernel
  have solid : ∀ mark ∈ ["BCD".toList, "TO".toList, "TRUNC".toList], mark.filter (!isBlank ·) = mark := by
    decide +kernel
  refine List.filter_eq_nil_iff.mpr fun field mem marked => ?_
  -- Without the blanks the text is the word, and a mark among its fields would still be one.
  have bare : (before ++ (word ++ after)).filter (!isBlank ·) = word := by
    rw [List.filter_append, List.filter_append, List.filter_eq_nil_iff.mpr (by simpa using blank),
      List.filter_eq_self.mpr (by simpa using visible), List.filter_eq_nil_iff.mpr (by simpa using blank'),
      List.nil_append, List.append_nil]
  have mem' : field.filter (!isBlank ·) ∈ fields '_' word := by
    rw [← bare, fields_filter (by decide)]
    exact List.mem_map_of_mem mem
  rw [solid field (of_decide_eq_true marked)] at mem'
  rw [unmarked (word, t) (mem_spellings_iff.mpr spelling) field mem'] at marked
  cases marked

/-! ## §3 The cut -/

namespace Conversion

open ConversionKind

/-- The marks of a name, in their order. -/
def marks (name : List Char) : List (List Char) := (fields '_' name).filter isMark

/-- The name made of a source, if there is one, the word for a kind, and a target. -/
def joinName (source : Option (List Char)) (kind : ConversionKind) (target : List Char) : List Char :=
  match source with
  | none => kind.word ++ target
  | some source => source ++ '_' :: (kind.word ++ target)

/-- The cut of a name at the word for one kind. -/
def cutAt? (name : List Char) (kind : ConversionKind) :
    Option (Option (List Char) × ConversionKind × List Char) :=
  match kind.word.isPrefixOf? name with
  | some target => some (none, kind, target)
  | none =>
    (splitAtWord? ('_' :: kind.word) name).map fun (source, target) => (some source, kind, target)

variable {name : List Char} {kind kind' : ConversionKind} {source source' : Option (List Char)}
  {target target' : List Char}

theorem splitName?_eq (name : List Char) :
    splitName? name = order.findSome? (cutAt? name) := rfl

theorem joinName_of_cutAt? (cut : cutAt? name kind = some (source, kind', target)) :
    kind' = kind ∧ joinName source kind target = name := by
  unfold cutAt? at cut
  split at cut
  case h_1 _ first =>
    cases cut
    exact ⟨rfl, List.append_eq_of_isPrefixOf?_eq_some first⟩
  case h_2 =>
    obtain ⟨⟨before, after⟩, inside, same⟩ := Option.map_eq_some_iff.mp cut
    cases same
    exact ⟨rfl, append_of_splitAtWord? inside⟩

/-- A name with the word for a kind can be cut at it. -/
theorem exists_cutAt? (source : Option (List Char)) (kind : ConversionKind) (target : List Char) :
    ∃ source' target', cutAt? (joinName source kind target) kind = some (source', kind, target') := by
  unfold cutAt?
  split
  case h_1 => exact ⟨_, _, rfl⟩
  case h_2 notFirst =>
    cases source with
    | none =>
      have first : kind.word.isPrefixOf? (kind.word ++ target) = some target :=
        List.isPrefixOf?_eq_some_iff_append_eq.mpr rfl
      rw [joinName, first] at notFirst
      cases notFirst
    | some source =>
      obtain ⟨sides, inside⟩ := exists_splitAtWord? source ('_' :: kind.word) target
      exact ⟨_, _, Option.map_eq_some_iff.mpr ⟨sides, inside, rfl⟩⟩

theorem joinName_of_splitName? (cut : splitName? name = some (source, kind, target)) :
    joinName source kind target = name := by
  rw [splitName?_eq] at cut
  obtain ⟨_, _, here⟩ := List.exists_of_findSome?_eq_some cut
  obtain ⟨rfl, joined⟩ := joinName_of_cutAt? here
  exact joined

/-- The fields of a source, if there is one. -/
def sourceFields (source : Option (List Char)) : List (List Char) := source.elim [] (fields '_')

theorem sourceFields_injective (same : sourceFields source = sourceFields source') :
    source = source' := by
  cases source with
  | none =>
    cases source' with
    | none => rfl
    | some source' => exact absurd same.symm (fields_ne_nil '_' source')
  | some source =>
    cases source' with
    | none => exact absurd same (fields_ne_nil '_' source)
    | some source' => exact congrArg some (fields_injective '_' same)

theorem fields_joinName (source : Option (List Char)) (kind : ConversionKind) (target : List Char) :
    fields '_' (joinName source kind target) =
      sourceFields source ++ (kind.marks ++ fields '_' target) := by
  cases source with
  | none => exact kind.fields_word_append target
  | some source =>
    rw [joinName, fields_append_cons, kind.fields_word_append]
    rfl

/-- A name with no marks but those of a word has one source and one target for that word. -/
theorem joinName_injective (plain : marks (joinName source kind target) = kind.marks)
    (same : joinName source kind target = joinName source' kind target') :
    source = source' ∧ target = target' := by
  have whole : fields '_' (joinName source kind target) = fields '_' (joinName source' kind target') :=
    congrArg _ same
  rw [marks, fields_joinName] at plain
  rw [fields_joinName, fields_joinName] at whole
  have front := before_unique plain whole
  rw [front] at whole
  have back := List.append_cancel_left (List.append_cancel_left whole)
  exact ⟨sourceFields_injective front, fields_injective '_' back⟩

/-- A name with no marks but those of its word is cut at that word. -/
theorem splitName?_joinName (plain : marks (joinName source kind target) = kind.marks) :
    splitName? (joinName source kind target) = some (source, kind, target) := by
  obtain ⟨before, after, order, apart⟩ := kind.not_infix_of_before
  rw [splitName?_eq, List.findSome?_eq_some_iff]
  refine ⟨before, kind, after, order, ?_, fun earlier mem => ?_⟩
  · obtain ⟨source', target', cut⟩ := exists_cutAt? source kind target
    obtain ⟨rfl, rfl⟩ := joinName_injective plain (joinName_of_cutAt? cut).2.symm
    exact cut
  · cases cut : cutAt? (joinName source kind target) earlier with
    | none => rfl
    | some parts =>
      -- The name would have the marks of the earlier word among its own.
      have joined := (joinName_of_cutAt? cut).2
      have within : earlier.marks <:+: fields '_' (joinName source kind target) := by
        rw [← joined, fields_joinName, ← List.append_assoc]
        exact List.infix_append _ _ _
      have marked := within.filter isMark
      rw [filter_marks] at marked
      exact absurd (plain ▸ marked) (apart earlier mem)

/-! ## §4 Parses -/

/-- The text is spelled as a type where there is one, and there is none without a text. -/
abbrev SourceSpelled : Option (List Char) → Option DataType → Prop := Option.Rel fun cs t => t.Spelled cs

theorem SourceSpelled.unique {s s' : Option DataType} (spelled : SourceSpelled source s)
    (spelled' : SourceSpelled source s') : s = s' := by
  cases spelled with
  | none =>
    cases spelled'
    rfl
  | some here =>
    cases spelled' with
    | some here' => rw [here.unique here']

theorem SourceSpelled.unmarked {s : Option DataType} (spelled : SourceSpelled source s) :
    (sourceFields source).filter isMark = [] := by
  cases spelled with
  | none => rfl
  | some here => exact here.unmarked

/-- The grammar of names. A name is read as a conversion if it is made of the word for its kind, a text
spelled as its target type and, where it has a source type, a text spelled as that. -/
structure Parse (name : List Char) (source : Option (List Char)) (target : List Char) (c : Conversion) :
    Prop where
  joined : joinName source c.kind target = name
  source : SourceSpelled source c.source
  target : c.target.Spelled target

variable {c c' : Conversion}

theorem Parse.marks_eq (parse : Parse name source target c) : marks name = c.kind.marks := by
  rw [← parse.joined, marks, fields_joinName, List.filter_append, List.filter_append,
    parse.source.unmarked, parse.target.unmarked, filter_marks, List.nil_append, List.append_nil]

/-- The reader cuts a name as the grammar does. -/
theorem Parse.splitName?_eq (parse : Parse name source target c) :
    splitName? name = some (source, c.kind, target) := by
  have plain := parse.marks_eq
  rw [← parse.joined] at plain ⊢
  exact splitName?_joinName plain

/-- The parts of a name and what they name are known from the name. -/
theorem Parse.unique (parse : Parse name source target c)
    (parse' : Parse name source' target' c') : source = source' ∧ target = target' ∧ c = c' := by
  have cut := parse.splitName?_eq.symm.trans parse'.splitName?_eq
  obtain ⟨s, kind, t⟩ := c
  obtain ⟨s', kind', t'⟩ := c'
  obtain ⟨rfl, rfl, rfl⟩ : source = source' ∧ kind = kind' ∧ target = target' := by simpa using cut
  obtain rfl : s = s' := parse.source.unique parse'.source
  obtain rfl : t = t' := parse.target.unique parse'.target
  exact ⟨rfl, rfl, rfl⟩

/-- The parts of an upper-case name are in upper case. -/
theorem upper_of_joinName (raised : upper name = name) (joined : joinName source kind target = name) :
    (∀ cs ∈ source, upper cs = cs) ∧ upper target = target := by
  subst joined
  cases source with
  | none => exact ⟨by simp, (upper_append_eq_iff.mp raised).2⟩
  | some source =>
    obtain ⟨front, back⟩ := upper_append_eq_iff.mp raised
    have rest := (List.cons.inj back).2
    exact ⟨by simp [front], (upper_append_eq_iff.mp rest).2⟩

/-- A name in upper case is read as a conversion where the grammar says so. -/
theorem ofName?_eq_some_iff (raised : upper name = name) :
    ofName? name = some c ↔ ∃ source target, Parse name source target c := by
  constructor
  · intro read
    unfold ofName? at read
    split at read
    case h_1 => cases read
    case h_2 kind target cut =>
      have joined := joinName_of_splitName? cut
      obtain ⟨_, raised_target⟩ := upper_of_joinName raised joined
      obtain ⟨t, spelled, rfl⟩ := Option.map_eq_some_iff.mp read
      rw [DataType.ofName?_eq_some_iff, raised_target] at spelled
      exact ⟨none, target, joined, .none, spelled⟩
    case h_3 source kind target cut =>
      have joined := joinName_of_splitName? cut
      obtain ⟨raised_source, raised_target⟩ := upper_of_joinName raised joined
      obtain ⟨t, spelled, rest⟩ := Option.bind_eq_some_iff.mp read
      obtain ⟨s, spelled', same⟩ := Option.bind_eq_some_iff.mp rest
      cases same
      rw [DataType.ofName?_eq_some_iff, raised_target] at spelled
      rw [DataType.ofName?_eq_some_iff, raised_source source rfl] at spelled'
      exact ⟨some source, target, joined, .some spelled', spelled⟩
  · rintro ⟨source, target, parse⟩
    obtain ⟨raised_source, raised_target⟩ := upper_of_joinName raised parse.joined
    have read : DataType.ofName? target = some c.target := by
      rw [DataType.ofName?_eq_some_iff, raised_target]
      exact parse.target
    unfold ofName?
    rw [parse.splitName?_eq]
    obtain ⟨s, kind, t⟩ := c
    obtain ⟨_, spelled, _⟩ := parse
    cases spelled with
    | none => exact Option.map_eq_some_iff.mpr ⟨t, read, rfl⟩
    | some here =>
      rw [← raised_source _ rfl, ← DataType.ofName?_eq_some_iff] at here
      exact Option.bind_eq_some_iff.mpr ⟨t, read, Option.bind_eq_some_iff.mpr ⟨_, here, rfl⟩⟩

/-- With an operand of the source type, or without a source type, the conversion is that of its kind. -/
theorem apply_run (profile : LiteralProfile) {operand : Value} (fits : ∀ s ∈ c.source, operand.type = s)
    (result : Value) :
    (c.apply profile operand).run result = (c.kind.apply profile c.target operand).run result := by
  have passes : requireSource c.source operand = .ok () := by
    cases source : c.source with
    | none => rfl
    | some s => exact if_pos (fits s source)
  exact Program.run_check_of_ok passes _ result

theorem apply_run_of_mismatch (profile : LiteralProfile) {operand : Value}
    (other : ∃ s ∈ c.source, operand.type ≠ s) (result : Value) :
    (c.apply profile operand).run result = .error .notAllowedType result := by
  have stops : requireSource c.source operand = .error .notAllowedType := by
    obtain ⟨s, source, other⟩ := other
    rw [Option.mem_def.mp source]
    exact if_neg other
  exact Program.run_check_of_error stops _ result

end Conversion

/-! ## §5 Calls -/

namespace Library

open Conversion

/-- Calling the name is converting the operand pushed last, whatever lies below it. There must be one, and
it must have the source type if there is one. No operand is left. -/
structure Converts (lib : Library) (name : String) (c : Conversion) : Prop where
  lacking : ∀ result, lib.call name result .empty = ⟨.error .nullParameter, result, .empty⟩
  mismatched : ∀ (below : List Value) (operand : Value), (∃ s ∈ c.source, operand.type ≠ s) →
    ∀ result, lib.call name result (.ofList (below ++ [operand])) =
      ⟨.error .notAllowedType, result, .empty⟩
  fitting : ∀ (below : List Value) (operand : Value), (∀ s ∈ c.source, operand.type = s) →
    ∀ result, lib.call name result (.ofList (below ++ [operand])) =
      ⟨(c.kind.apply lib.profile c.target operand).status result,
        (c.kind.apply lib.profile c.target operand).final result, .empty⟩

variable {lib : Library} {name : String} {c : Conversion}

theorem converts_of_ofName? (free : lib.find? name = none) (read : ofName? (key name) = some c) :
    lib.Converts name c := by
  have behind : lib.program name = (Operator.unary (c.apply lib.profile)).run :=
    program_of_conversion free read
  have taken (below : List Value) (operand result : Value) :
      lib.call name result (.ofList (below ++ [operand])) =
        ⟨(c.apply lib.profile operand).status result, (c.apply lib.profile operand).final result, .empty⟩ :=
    call_program behind below #v[operand] result
  refine ⟨call_program_of_short behind Nat.zero_lt_one, ?_, ?_⟩
  · intro below operand other result
    have run := apply_run_of_mismatch lib.profile other result
    rw [taken, Program.status_of_error run, Program.final_of_error run]
  · intro below operand fits result
    rw [taken]
    simp only [Program.status, Program.final, apply_run lib.profile fits]

/-- A name that is neither that of an operator nor that of a conversion only drops the operands. -/
theorem call_of_ofName?_eq_none (free : lib.find? name = none) (unread : ofName? (key name) = none)
    (result : Value) (operands : OperandStack) :
    lib.call name result operands = ⟨.error .elementNotFound, result, .empty⟩ := by
  have run : (lib.program name).run ⟨result, operands⟩ = .error .elementNotFound ⟨result, .empty⟩ := by
    simp [Library.program, conversion?, free, unread]
    rfl
  simp only [call, Program.status_of_error run, Program.final_of_error run]

/-- A name that no operator has is called as a conversion exactly where its upper-case form fits the
grammar. It fits in one way at most, and the call is the conversion that it names. Any other name is not
known. -/
theorem call_unregistered (free : lib.find? name = none) :
    ((∃ c, lib.Converts name c) ↔ ∃ source target c, Parse (key name) source target c) ∧
    (∀ source target c, Parse (key name) source target c →
      lib.Converts name c ∧ ∀ source' target' c', Parse (key name) source' target' c' →
        source = source' ∧ target = target' ∧ c = c') ∧
    ((¬∃ source target c, Parse (key name) source target c) → ∀ result operands,
      lib.call name result operands = ⟨.error .elementNotFound, result, .empty⟩) := by
  have raised : upper (key name) = key name := upper_upper _
  have converts {source : Option (List Char)} {target : List Char} {c : Conversion}
      (parse : Parse (key name) source target c) : lib.Converts name c :=
    converts_of_ofName? free ((ofName?_eq_some_iff raised).mpr ⟨source, target, parse⟩)
  have unknown (none : ¬∃ source target c, Parse (key name) source target c) (result : Value)
      (operands : OperandStack) :
      lib.call name result operands = ⟨.error .elementNotFound, result, .empty⟩ := by
    refine call_of_ofName?_eq_none free (Option.eq_none_iff_forall_ne_some.mpr fun c read => ?_) result operands
    obtain ⟨source, target, parse⟩ := (ofName?_eq_some_iff raised).mp read
    exact none ⟨source, target, c, parse⟩
  refine ⟨⟨?_, ?_⟩, fun source target c parse => ⟨converts parse, ?_⟩, unknown⟩
  · rintro ⟨c, converts⟩
    -- Unknown and called as a conversion, the name would stop at two faults on an empty stack.
    by_contra none
    have two := (converts.lacking .null).symm.trans (unknown none .null .empty)
    cases two
  · rintro ⟨source, target, c, parse⟩
    exact ⟨c, converts parse⟩
  · intro source' target' c' parse'
    exact parse.unique parse'

/-- Blanks stand around both types of the first name, whose source is spelled in full. The second one has a
word too many. -/
theorem call_unregistered_padded :
    let lib := standard .power {}
    (lib.find? " date_and_time_to_ Lint" = none ∧ lib.find? "INT_TO_TO_REAL" = none) ∧
      lib.Converts " date_and_time_to_ Lint" ⟨some .dt, .convert, .lint⟩ ∧
      ∀ result operands,
        lib.call "INT_TO_TO_REAL" result operands = ⟨.error .elementNotFound, result, .empty⟩ := by
  intro lib
  have free (name : String) (absent : key name ∉ (standardEntries .power).map (key ·.1)) :
      lib.find? name = none := (find?_registerAll_of_notMem absent { profile := {} }).trans rfl
  have free₁ := free " date_and_time_to_ Lint" (by decide +kernel)
  have free₂ := free "INT_TO_TO_REAL" (by decide +kernel)
  have source : DataType.dt.Spelled " DATE_AND_TIME".toList :=
    ⟨[' '], "DATE_AND_TIME".toList, [], List.forall_mem_singleton.mpr rfl, by simp, .dateAndTime, rfl⟩
  have target : DataType.lint.Spelled " LINT".toList :=
    ⟨[' '], "LINT".toList, [], List.forall_mem_singleton.mpr rfl, by simp, .name .lint, rfl⟩
  have parse : Parse (key " date_and_time_to_ Lint") (some " DATE_AND_TIME".toList) " LINT".toList
      ⟨some .dt, .convert, .lint⟩ := ⟨by decide +kernel, .some source, target⟩
  refine ⟨⟨free₁, free₂⟩, ((call_unregistered free₁).2.1 _ _ _ parse).1, ?_⟩
  refine (call_unregistered free₂).2.2 ?_
  rintro ⟨source, target, c, parse⟩
  have others : ∀ kind : ConversionKind, Conversion.marks (key "INT_TO_TO_REAL") ≠ kind.marks := by
    rintro (_ | _ | _ | _) <;> decide +kernel
  exact others c.kind parse.marks_eq

end Library

end Plc
