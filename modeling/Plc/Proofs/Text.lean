import Mathlib.Data.List.Basic
import Plc.Text.Blank
import Plc.Text.Split

/-!
# Text as its readers see it

Readers trim a text and raise its letters before they look at it, and cut it at separators. Blanks
around a text are not seen at all, and a text without blanks and lower-case letters is seen as it
stands.

Main statements:

* `trim_surrounded`: blanks around a text make no difference.
* `isBlank_toUpper`: a change of case makes no blank and takes none away.
* `splitFirst?_append`, `splitFirst?_of_notMem`: where the first separator is, and where there is none.
* `splitLast?_append`, `fields_append`: the last separator, and all of them.
* `splitFirst?_eq_some_iff`, `splitLast?_eq_some_iff`, `fields_eq_triple_iff`: what a text was, told from
  its parts.
* `fields_injective`, `fields_append_cons`: texts are known from their fields, and joined at a separator
  when their fields are joined.
* `append_of_splitAtWord?`, `exists_splitAtWord?`: a text is cut at a word where the word is in it, and
  only there.
-/

namespace Plc.Text

variable {cs before after : List Char}

/-! ## §1 Runs of characters -/

/-- A run ends where something else begins. -/
theorem span_append {α : Type} {before after : List α} {p : α → Bool}
    (inside : ∀ c ∈ before, p c = true) (boundary : ∀ c, after.head? = some c → p c = false) :
    (before ++ after).takeWhile p = before ∧ (before ++ after).dropWhile p = after := by
  rw [List.takeWhile_append_of_pos inside, List.dropWhile_append_of_pos inside]
  cases after with
  | nil => simp
  | cons c rest => simp [boundary c rfl]

theorem span_self {p : Char → Bool} (inside : ∀ c ∈ cs, p c = true) :
    cs.takeWhile p = cs ∧ cs.dropWhile p = [] := by
  have run : (cs ++ []).takeWhile p = cs ∧ (cs ++ []).dropWhile p = [] :=
    span_append inside fun c first => by cases first
  rwa [List.append_nil] at run

/-! ## §2 Trimming -/

theorem trim_of_notBlank (visible : ∀ c ∈ cs, isBlank c = false) : trim cs = cs := by
  have keeps : ∀ ds : List Char, (∀ c ∈ ds, isBlank c = false) → ds.dropWhile isBlank = ds := by
    intro ds all
    cases ds with
    | nil => rfl
    | cons c rest => simp [all c List.mem_cons_self]
  unfold trim
  rw [keeps cs visible, keeps cs.reverse (by simpa using visible), List.reverse_reverse]

theorem trim_append_left (blank : ∀ c ∈ before, isBlank c = true) (cs : List Char) :
    trim (before ++ cs) = trim cs := by
  unfold trim
  rw [List.dropWhile_append_of_pos blank]

theorem trim_append_right (blank : ∀ c ∈ after, isBlank c = true) (cs : List Char) :
    trim (cs ++ after) = trim cs := by
  have nothing : after.dropWhile isBlank = [] := (span_self blank).2
  unfold trim
  rw [List.dropWhile_append]
  split
  case isTrue empty =>
    -- Nothing but blanks on both sides.
    rw [nothing, List.isEmpty_iff.mp empty]
  case isFalse =>
    rw [List.reverse_append, List.dropWhile_append_of_pos (by simpa using blank)]

theorem trim_surrounded (blank : ∀ c ∈ before, isBlank c = true)
    (blank' : ∀ c ∈ after, isBlank c = true) (visible : ∀ c ∈ cs, isBlank c = false) :
    trim (before ++ (cs ++ after)) = cs := by
  rw [trim_append_left blank, trim_append_right blank', trim_of_notBlank visible]

/-- What is cut off a text is blank. -/
theorem exists_trim (cs : List Char) :
    ∃ before after, (∀ c ∈ before, isBlank c = true) ∧ (∀ c ∈ after, isBlank c = true) ∧
      cs = before ++ (trim cs ++ after) := by
  have blank (ds : List Char) : ∀ c ∈ ds.takeWhile isBlank, isBlank c = true :=
    fun _ mem => List.all_eq_true.mp List.all_takeWhile _ mem
  refine ⟨cs.takeWhile isBlank, ((cs.dropWhile isBlank).reverse.takeWhile isBlank).reverse, blank cs, ?_, ?_⟩
  · intro c mem
    exact blank _ c (List.mem_reverse.mp mem)
  · unfold trim
    rw [← List.reverse_append, List.takeWhile_append_dropWhile, List.reverse_reverse,
      List.takeWhile_append_dropWhile]

/-! ## §3 Letter case -/

@[simp] theorem upper_append (cs ds : List Char) : upper (cs ++ ds) = upper cs ++ upper ds :=
  List.map_append

/-- The parts of an upper-case text are in upper case. -/
theorem upper_append_eq_iff {cs ds : List Char} :
    upper (cs ++ ds) = cs ++ ds ↔ upper cs = cs ∧ upper ds = ds := by
  rw [upper_append]
  constructor
  · intro raised
    exact List.append_inj raised (List.length_map _)
  · rintro ⟨front, back⟩
    rw [front, back]

@[simp] theorem upper_cons (c : Char) (cs : List Char) : upper (c :: cs) = c.toUpper :: upper cs :=
  rfl

/-- A letter is raised by the distance between the two cases, anything else stays. -/
theorem toNat_toUpper (c : Char) :
    c.toUpper.toNat = if 97 ≤ c.toNat ∧ c.toNat ≤ 122 then c.toNat - 32 else c.toNat := by
  unfold Char.toUpper
  split
  case isTrue lower =>
    have range : 97 ≤ c.toNat ∧ c.toNat ≤ 122 := lower
    rw [if_pos range]
    have distance : ('A'.val - 'a'.val).toNat = 4294967264 := by decide
    show (c.val + ('A'.val - 'a'.val)).toNat = c.toNat - 32
    rw [UInt32.toNat_add, distance, Char.toNat_val]
    omega
  case isFalse other => exact (if_neg other).symm

theorem toUpper_of_notLower {c : Char} (raised : ¬(97 ≤ c.toNat ∧ c.toNat ≤ 122)) :
    c.toUpper = c := dif_neg raised

theorem toUpper_toUpper (c : Char) : c.toUpper.toUpper = c.toUpper := by
  have raised := toNat_toUpper c
  split at raised
  case isTrue => exact toUpper_of_notLower (by omega)
  case isFalse other => rw [toUpper_of_notLower other, toUpper_of_notLower other]

@[simp] theorem upper_upper (cs : List Char) : upper (upper cs) = upper cs := by
  unfold upper
  rw [List.map_map]
  exact List.map_congr_left fun c _ => toUpper_toUpper c

theorem upper_of_notLower (raised : ∀ c ∈ cs, ¬(97 ≤ c.toNat ∧ c.toNat ≤ 122)) : upper cs = cs := by
  have same : ∀ c ∈ cs, c.toUpper = id c := fun c mem => toUpper_of_notLower (raised c mem)
  unfold upper
  rw [List.map_congr_left same, List.map_id]

theorem isBlank_of_visible {c : Char} (least : 33 ≤ c.toNat) (most : c.toNat ≤ 126) :
    isBlank c = false := by
  simp only [isBlank, blankRanges, List.any_cons, List.any_nil]
  grind

/-- Letters are no blanks, in either case. -/
theorem isBlank_toUpper (c : Char) : isBlank c.toUpper = isBlank c := by
  have raised := toNat_toUpper c
  split at raised
  case isTrue => rw [isBlank_of_visible (by omega) (by omega), isBlank_of_visible (by omega) (by omega)]
  case isFalse other => rw [toUpper_of_notLower other]

theorem trim_upper (cs : List Char) : trim (upper cs) = upper (trim cs) := by
  have unchanged : isBlank ∘ Char.toUpper = isBlank := funext isBlank_toUpper
  unfold trim upper
  rw [List.dropWhile_map, unchanged, ← List.map_reverse, List.dropWhile_map, unchanged, ← List.map_reverse]

/-- A text is free of blanks if its upper-case form is. -/
theorem notBlank_of_upper (visible : ∀ c ∈ upper cs, isBlank c = false) :
    ∀ c ∈ cs, isBlank c = false := by
  intro c mem
  rw [← isBlank_toUpper]
  exact visible _ (List.mem_map_of_mem mem)

theorem isBlank_of_isDigit {c : Char} (digit : c.isDigit = true) : isBlank c = false := by
  obtain ⟨least, most⟩ := Char.isDigit_iff_toNat.mp digit
  have range : 48 ≤ c.toNat ∧ c.toNat ≤ 57 := ⟨least, most⟩
  exact isBlank_of_visible (by omega) (by omega)

/-! ## §4 The first separator and the last one -/

theorem splitFirst?_append {sep : Char} (absent : sep ∉ before) (after : List Char) :
    splitFirst? sep (before ++ sep :: after) = some (before, after) := by
  have other : ∀ c ∈ before, decide (c ≠ sep) = true := by
    intro c mem
    exact decide_eq_true fun same => absent (same ▸ mem)
  have stop : decide (sep ≠ sep) = false := by simp
  unfold splitFirst?
  rw [List.dropWhile_append_of_pos other, List.takeWhile_append_of_pos other,
    List.dropWhile_cons_of_neg (by simp), List.takeWhile_cons_of_neg (by simp), List.append_nil]

theorem splitFirst?_of_notMem {sep : Char} (absent : sep ∉ cs) : splitFirst? sep cs = none := by
  have other : ∀ c ∈ cs, decide (c ≠ sep) = true := by
    intro c mem
    exact decide_eq_true fun same => absent (same ▸ mem)
  unfold splitFirst?
  rw [(span_self other).2]

theorem splitLast?_append {sep : Char} (absent : sep ∉ after) (before : List Char) :
    splitLast? sep (before ++ sep :: after) = some (before, after) := by
  have reversed : (before ++ sep :: after).reverse = after.reverse ++ sep :: before.reverse := by simp
  unfold splitLast?
  rw [reversed, splitFirst?_append (by simpa using absent)]
  simp

/-- Either there is no separator, or the text is cut at the first one. -/
theorem splitFirst?_cases (sep : Char) (cs : List Char) :
    (sep ∉ cs ∧ splitFirst? sep cs = none) ∨
      ∃ before after, cs = before ++ sep :: after ∧ sep ∉ before ∧
        splitFirst? sep cs = some (before, after) := by
  by_cases mem : sep ∈ cs
  case pos =>
    obtain ⟨before, after, rfl, absent⟩ := List.eq_append_cons_of_mem mem
    exact Or.inr ⟨before, after, rfl, absent, splitFirst?_append absent after⟩
  case neg => exact Or.inl ⟨mem, splitFirst?_of_notMem mem⟩

theorem splitFirst?_eq_none_iff {sep : Char} : splitFirst? sep cs = none ↔ sep ∉ cs := by
  rcases splitFirst?_cases sep cs with ⟨absent, cut⟩ | ⟨front, back, rfl, absent, cut⟩
  · simp [cut, absent]
  · simp [cut]

theorem splitFirst?_eq_some_iff {sep : Char} :
    splitFirst? sep cs = some (before, after) ↔ cs = before ++ sep :: after ∧ sep ∉ before := by
  constructor
  · intro cut
    rcases splitFirst?_cases sep cs with ⟨_, none⟩ | ⟨front, back, rfl, absent, cut'⟩
    · rw [cut] at none
      contradiction
    · rw [cut] at cut'
      obtain ⟨rfl, rfl⟩ := Prod.mk.inj (Option.some.inj cut')
      exact ⟨rfl, absent⟩
  · rintro ⟨rfl, absent⟩
    exact splitFirst?_append absent after

/-- The last separator is the first one of the text that is read backwards. -/
theorem splitLast?_eq_some_iff {sep : Char} :
    splitLast? sep cs = some (before, after) ↔ cs = before ++ sep :: after ∧ sep ∉ after := by
  constructor
  · intro cut
    obtain ⟨⟨back, front⟩, reversed, parts⟩ := Option.map_eq_some_iff.mp cut
    obtain ⟨rfl, rfl⟩ := Prod.mk.inj parts
    obtain ⟨whole, absent⟩ := splitFirst?_eq_some_iff.mp reversed
    refine ⟨?_, by simpa using absent⟩
    rw [← cs.reverse_reverse, whole]
    simp
  · rintro ⟨rfl, absent⟩
    exact splitLast?_append absent before

/-! ## §5 All separators -/

theorem fields_of_notMem {sep : Char} (absent : sep ∉ cs) : fields sep cs = [cs] := by
  induction cs with
  | nil => rfl
  | cons c rest ih =>
    have other : c ≠ sep := Ne.symm (List.ne_of_not_mem_cons absent)
    unfold fields
    rw [if_neg other, ih (List.not_mem_of_not_mem_cons absent)]

theorem fields_append {sep : Char} (absent : sep ∉ before) (after : List Char) :
    fields sep (before ++ sep :: after) = before :: fields sep after := by
  induction before with
  | nil => exact if_pos rfl
  | cons c rest ih =>
    have other : c ≠ sep := Ne.symm (List.ne_of_not_mem_cons absent)
    rw [List.cons_append, fields, if_neg other, ih (List.not_mem_of_not_mem_cons absent)]

theorem fields_eq_singleton_iff {sep : Char} {field : List Char} :
    fields sep cs = [field] ↔ cs = field ∧ sep ∉ field := by
  constructor
  · intro parts
    rcases splitFirst?_cases sep cs with ⟨absent, _⟩ | ⟨front, back, rfl, absent, _⟩
    · rw [fields_of_notMem absent] at parts
      obtain rfl := List.singleton_inj.mp parts
      exact ⟨rfl, absent⟩
    · rw [fields_append absent] at parts
      exact absurd (List.cons.inj parts).2 (fields_ne_nil sep back)
  · rintro ⟨rfl, absent⟩
    exact fields_of_notMem absent

/-- Where there are several fields, the first one ends at the first separator. -/
theorem fields_eq_cons_iff {sep : Char} {field : List Char} {others : List (List Char)}
    (several : others ≠ []) :
    fields sep cs = field :: others ↔
      ∃ after, cs = field ++ sep :: after ∧ sep ∉ field ∧ fields sep after = others := by
  constructor
  · intro parts
    rcases splitFirst?_cases sep cs with ⟨absent, _⟩ | ⟨front, back, rfl, absent, _⟩
    · rw [fields_of_notMem absent] at parts
      exact absurd (List.cons.inj parts).2.symm several
    · rw [fields_append absent] at parts
      obtain ⟨rfl, rfl⟩ := List.cons.inj parts
      exact ⟨back, rfl, absent, rfl⟩
  · rintro ⟨after, rfl, absent, rfl⟩
    exact fields_append absent after

theorem fields_eq_triple_iff {sep : Char} {first second third : List Char} :
    fields sep cs = [first, second, third] ↔
      cs = first ++ sep :: (second ++ sep :: third) ∧ sep ∉ first ∧ sep ∉ second ∧ sep ∉ third := by
  simp only [fields_eq_cons_iff (List.cons_ne_nil _ _), fields_eq_singleton_iff]
  constructor
  · rintro ⟨_, rfl, front, _, rfl, middle, rfl, back⟩
    exact ⟨rfl, front, middle, back⟩
  · rintro ⟨rfl, front, middle, back⟩
    exact ⟨_, rfl, front, _, rfl, middle, rfl, back⟩

/-- A text with a separator has the fields of its two sides. -/
theorem fields_append_cons (sep : Char) (before after : List Char) :
    fields sep (before ++ sep :: after) = fields sep before ++ fields sep after := by
  induction before with
  | nil => exact if_pos rfl
  | cons c rest ih =>
    obtain ⟨field, others, parts⟩ := List.exists_cons_of_ne_nil (fields_ne_nil sep rest)
    rw [parts] at ih
    simp only [List.cons_append, fields, ih, parts]
    split <;> rfl

/-- Fields that are ended one by one. -/
theorem fields_flatMap {sep : Char} {ended : List (List Char)} (absent : ∀ field ∈ ended, sep ∉ field)
    (rest : List Char) :
    fields sep (ended.flatMap (· ++ [sep]) ++ rest) = ended ++ fields sep rest := by
  induction ended with
  | nil => rfl
  | cons field others ih =>
    obtain ⟨first, later⟩ := List.forall_mem_cons.mp absent
    have shape : (field :: others).flatMap (· ++ [sep]) ++ rest =
        field ++ sep :: (others.flatMap (· ++ [sep]) ++ rest) := by simp
    rw [shape, fields_append first, ih later, List.cons_append]

/-- The fields with the separators between them are the text. -/
theorem intercalate_fields (sep : Char) (cs : List Char) : [sep].intercalate (fields sep cs) = cs := by
  induction cs with
  | nil => rfl
  | cons c rest ih =>
    obtain ⟨field, others, parts⟩ := List.exists_cons_of_ne_nil (fields_ne_nil sep rest)
    rw [parts] at ih
    by_cases same : c = sep
    case pos => rw [fields, if_pos same, parts, List.intercalate_cons_cons, ih, same]; rfl
    case neg =>
      rw [fields, if_neg same, parts]
      change [sep].intercalate ((c :: field) :: others) = c :: rest
      rw [← ih]
      cases others with
      | nil => rfl
      | cons next others => rw [List.intercalate_cons_cons, List.intercalate_cons_cons]; rfl

theorem fields_injective (sep : Char) {cs ds : List Char} (same : fields sep cs = fields sep ds) :
    cs = ds := by
  rw [← intercalate_fields sep cs, same, intercalate_fields]

/-- Characters that are left out of a text are left out of its fields. -/
theorem fields_filter {sep : Char} {p : Char → Bool} (keeps : p sep = true) (cs : List Char) :
    fields sep (cs.filter p) = (fields sep cs).map (List.filter p) := by
  induction cs with
  | nil => rfl
  | cons c rest ih =>
    obtain ⟨field, others, parts⟩ := List.exists_cons_of_ne_nil (fields_ne_nil sep rest)
    rw [parts, List.map_cons] at ih
    by_cases same : c = sep
    case pos =>
      subst same
      rw [List.filter_cons_of_pos keeps, fields, if_pos rfl, ih, fields, if_pos rfl, parts]
      rfl
    case neg =>
      have whole : fields sep (c :: rest) = (c :: field) :: others := by rw [fields, if_neg same, parts]
      rw [whole, List.map_cons]
      cases kept : p c with
      | true => rw [List.filter_cons_of_pos kept, List.filter_cons_of_pos kept, fields, if_neg same, ih]
      | false =>
        have left : ¬p c = true := Bool.eq_false_iff.mp kept
        rw [List.filter_cons_of_neg left, List.filter_cons_of_neg left, ih]

/-! ## §6 Words -/

variable {word : List Char}

/-- Cut at a word, a text is what lies before the word, the word and what lies after it. -/
theorem append_of_splitAtWord? (cut : splitAtWord? word cs = some (before, after)) :
    before ++ (word ++ after) = cs := by
  induction cs generalizing before with
  | nil =>
    obtain ⟨_, first, parts⟩ := Option.map_eq_some_iff.mp cut
    cases parts
    rw [List.nil_append]
    exact List.append_eq_of_isPrefixOf?_eq_some first
  | cons c rest ih =>
    unfold splitAtWord? at cut
    split at cut
    case h_1 _ first =>
      cases cut
      rw [List.nil_append]
      exact List.append_eq_of_isPrefixOf?_eq_some first
    case h_2 =>
      obtain ⟨⟨before', _⟩, later, parts⟩ := Option.map_eq_some_iff.mp cut
      cases parts
      exact congrArg (c :: ·) (ih later)

/-- Where a word is in a text, the text is cut at the first place of it. -/
theorem exists_splitAtWord? (before word after : List Char) :
    ∃ parts, splitAtWord? word (before ++ (word ++ after)) = some parts := by
  have first (cs : List Char) : word.isPrefixOf? (word ++ cs) = some cs :=
    List.isPrefixOf?_eq_some_iff_append_eq.mpr rfl
  induction before with
  | nil =>
    rw [List.nil_append]
    cases whole : word ++ after with
    | nil => exact ⟨_, by rw [splitAtWord?, ← whole, first]; rfl⟩
    | cons c rest => exact ⟨_, by rw [splitAtWord?, ← whole, first]⟩
  | cons c rest ih =>
    obtain ⟨parts, later⟩ := ih
    rw [List.cons_append]
    unfold splitAtWord?
    split
    case h_1 => exact ⟨_, rfl⟩
    case h_2 => exact ⟨_, by rw [later]; rfl⟩

end Plc.Text
