/-!
# Cutting text

Text is cut at the first or last occurrence of a character, at every occurrence, or at the first
occurrence of a word. What lies on both sides of a cut, with the separator between, is the text.
-/

namespace Plc.Text

/-- The text before the first `sep` and the text after it. -/
def splitFirst? (sep : Char) (cs : List Char) : Option (List Char × List Char) :=
  match cs.dropWhile (· ≠ sep) with
  | [] => none
  | _ :: after => some (cs.takeWhile (· ≠ sep), after)

/-- The text before the last `sep` and the text after it. -/
def splitLast? (sep : Char) (cs : List Char) : Option (List Char × List Char) :=
  (splitFirst? sep cs.reverse).map fun (after, before) => (before.reverse, after.reverse)

/-- The parts between all occurrences of `sep`; there is always at least one. -/
def fields (sep : Char) : List Char → List (List Char)
  | [] => [[]]
  | c :: rest =>
    if c = sep then [] :: fields sep rest
    else
      match fields sep rest with
      | [] => [[c]]
      | field :: others => (c :: field) :: others

/-- The text before the first occurrence of a word and the text after it. -/
def splitAtWord? (word : List Char) : List Char → Option (List Char × List Char)
  | [] => (word.isPrefixOf? []).map fun after => ([], after)
  | c :: rest =>
    match word.isPrefixOf? (c :: rest) with
    | some after => some ([], after)
    | none => (splitAtWord? word rest).map fun (before, after) => (c :: before, after)

theorem fields_ne_nil (sep : Char) (cs : List Char) : fields sep cs ≠ [] := by
  cases cs with
  | nil => simp [fields]
  | cons c rest =>
    unfold fields
    split
    · simp
    · split <;> simp

end Plc.Text
