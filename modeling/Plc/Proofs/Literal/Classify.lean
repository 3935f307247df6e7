import Mathlib.Data.List.Basic
import Plc.Literal.Basic
import Plc.Proofs.Text

/-!
# The parts of a literal

A literal is taken apart at its marks, and every mark ends in a hash, as does the type in front. So the
first hash of a text decides what stands in front of it, and a text without one is all body.

Main statements:

* `classify_of_unmarked`: without a mark of its own in front, a text is a type, if it names one, and
  what is left (`ofRest`).
* `classify_typed`, `classify_plain`, `classify_duration`: the three openings of a text that the laws of
  literals speak of.
-/

namespace Plc.Literal

variable {marks : List (List Char × LiteralKind)} {cs rest text front : List Char}

/-! ## §1 Marks -/

theorem splitMark?_eq_none_iff :
    splitMark? marks cs = none ↔ ∀ entry ∈ marks, ¬entry.1 <+: cs := by
  have each (mark : List Char) (kind : LiteralKind) :
      (mark.isPrefixOf? cs).map (fun body => (kind, body)) = none ↔ ¬mark <+: cs := by
    rw [Option.map_eq_none_iff, Option.eq_none_iff_forall_ne_some]
    simp only [ne_eq, List.isPrefixOf?_eq_some_iff_append_eq]
    constructor
    · rintro absent ⟨body, eq⟩
      exact absent body eq
    · intro absent body eq
      exact absent ⟨body, eq⟩
  unfold splitMark?
  rw [List.findSome?_eq_none_iff]
  constructor
  · intro none entry mem
    exact (each entry.1 entry.2).mp (none entry mem)
  · intro none entry mem
    exact (each entry.1 entry.2).mpr (none entry mem)

/-- Every mark is a word with a hash after it, and has no other hash. -/
structure Hashed (marks : List (List Char × LiteralKind)) : Prop where
  ends : ∀ entry ∈ marks, entry.1 = entry.1.dropLast ++ ['#']
  word : ∀ entry ∈ marks, '#' ∉ entry.1.dropLast

theorem hashed_momentMarks : Hashed momentMarks := ⟨by decide +kernel, by decide +kernel⟩

theorem hashed_radixMarks : Hashed radixMarks := ⟨by decide +kernel, by decide +kernel⟩

/-- A text without a hash begins with no mark. -/
theorem Hashed.splitMark?_of_notMem (hashed : Hashed marks) (absent : '#' ∉ cs) :
    splitMark? marks cs = none := by
  rw [splitMark?_eq_none_iff]
  rintro entry mem ⟨body, eq⟩
  apply absent
  rw [← eq, hashed.ends entry mem]
  simp

/-- The word before the first hash is the only one that can be a mark. -/
theorem Hashed.splitMark?_of_front (hashed : Hashed marks) (plain : '#' ∉ front)
    (other : front ++ ['#'] ∉ marks.map (·.1)) (rest : List Char) :
    splitMark? marks (front ++ '#' :: rest) = none := by
  rw [splitMark?_eq_none_iff]
  rintro entry mem ⟨body, eq⟩
  apply other
  -- Both readings of the text put its first hash in the same place.
  rw [hashed.ends entry mem, List.append_assoc, List.singleton_append] at eq
  have cut := Text.splitFirst?_append (hashed.word entry mem) body
  rw [eq, Text.splitFirst?_append plain rest, Option.some.injEq, Prod.mk.injEq] at cut
  rw [cut.1, ← hashed.ends entry mem]
  exact List.mem_map_of_mem mem

/-! ## §2 What is left after the type -/

/-- The parts of a literal whose type, if there is one, has been taken off. -/
def ofRest (explicit : Option DataType) (rest : List Char) : Literal :=
  match splitMark? momentMarks rest with
  | some (kind, body) => ⟨kind, explicit, body⟩
  | none =>
    match splitMark? radixMarks rest with
    | some (kind, body) => ⟨kind, explicit, dropUnderscores body⟩
    | none => ⟨plainKind (plainBody rest), explicit, plainBody rest⟩

theorem ofRest_of_notMem (explicit : Option DataType) (absent : '#' ∉ rest) :
    ofRest explicit rest = ⟨plainKind (plainBody rest), explicit, plainBody rest⟩ := by
  unfold ofRest
  rw [hashed_momentMarks.splitMark?_of_notMem absent, hashed_radixMarks.splitMark?_of_notMem absent]

/-- No mark of a radix begins another one or a mark of a date or time. -/
theorem ofRest_radix (explicit : Option DataType) {mark : List Char} {kind : LiteralKind}
    (mem : (mark, kind) ∈ radixMarks) (digits : List Char) :
    ofRest explicit (mark ++ digits) = ⟨kind, explicit, dropUnderscores digits⟩ := by
  simp only [radixMarks, List.mem_cons, Prod.mk.injEq, List.not_mem_nil, or_false] at mem
  rcases mem with ⟨rfl, rfl⟩ | ⟨rfl, rfl⟩ | ⟨rfl, rfl⟩ <;> rfl

theorem classify_of_unmarked (seen : Text.upper (Text.trim text) = cs) (some : cs ≠ [])
    (unmarked : splitMark? momentMarks cs = none) :
    classify text = .ok (ofRest (splitType cs).1 (splitType cs).2) := by
  unfold classify ofRest
  simp only [seen, if_neg some, unmarked]
  -- What comes after the type is looked at in the same order on both sides.
  cases splitMark? momentMarks (splitType cs).2 with
  | some found => rfl
  | none => cases splitMark? radixMarks (splitType cs).2 <;> rfl

theorem classify_plain (seen : Text.upper (Text.trim text) = cs) (some : cs ≠ [])
    (absent : '#' ∉ cs) :
    classify text = .ok ⟨plainKind (plainBody cs), none, plainBody cs⟩ := by
  have untyped : splitType cs = (none, cs) := by
    unfold splitType
    rw [Text.splitFirst?_of_notMem absent]
  rw [classify_of_unmarked seen some (hashed_momentMarks.splitMark?_of_notMem absent), untyped,
    ofRest_of_notMem none absent]

theorem notMem_name (t : DataType) : '#' ∉ t.name.toList := by
  cases t <;> decide +kernel

theorem classify_typed {t : DataType} (other : t.name.toList ++ ['#'] ∉ momentMarks.map (·.1))
    (seen : Text.upper (Text.trim text) = t.name.toList ++ '#' :: rest) :
    classify text = .ok (ofRest (some t) rest) := by
  have typed : splitType (t.name.toList ++ '#' :: rest) = (some t, rest) := by
    unfold splitType
    rw [Text.splitFirst?_append (notMem_name t) rest]
    simp only [DataType.ofName?_name]
  have unmarked := hashed_momentMarks.splitMark?_of_front (notMem_name t) other rest
  rw [classify_of_unmarked seen (by simp) unmarked, typed]

theorem classify_duration (seen : Text.upper (Text.trim text) = 'T' :: '#' :: rest) :
    classify text = .ok ⟨.duration, none, rest⟩ := by
  unfold classify
  simp only [seen]
  rfl

end Plc.Literal
