import Plc.Operator.CharString
import Plc.Proofs.Library.Flags
import Plc.Proofs.Value.Word

/-!
# Values that hold text

Operators that cut strings make their result after the model of the string that they cut: it has the type
of that string, and keeps a checksum if that string does. Where such results go into further operators, it
is still the same string that decides, so of each result only the characters need to be known.

Main statements:

* `Value.textLike_setCharsLike`: what is stored after the model of a string.
* `Value.TextLike.trans`: a model of a model is a model.
* `Value.TextLike.alike`: a string is known from its model and its characters.
* `Value.Names.spelledText`: the text of a character.
-/

namespace Plc

/-! ## §1 Texts and their checksums -/

/-- A text whose checksum is right is as it was made. -/
theorem CharString.Sound.eq_ofString {t : CharString} (sound : t.Sound) :
    t = ofString (String.ofList t.chars) t.isHashed := by
  obtain ⟨content, digest⟩ := t
  unfold ofString chars isHashed
  rw [String.ofList_toList]
  cases digest with
  | none => rfl
  | some kept => exact congrArg (CharString.mk content) (congrArg some (sound kept rfl))

theorem Payload.eq_of_text? {p : Payload} {t : CharString} (found : p.text? = some t) :
    p = ⟨.string, t⟩ := by
  obtain ⟨shape, data⟩ := p
  cases shape <;> cases found
  rfl

/-! ## §2 Strings -/

namespace Value

variable {u v s result : Value} {cs ds : List Char}

/-- A well-formed value of a string type. -/
structure AnyString (v : Value) : Prop where
  wf : v.WellFormed
  string : v.type.belongs .string = true

/-- The value is a string of the given characters, after the model of the string `s`: of the same type, and
with a checksum if `s` has one. -/
structure TextLike (u s : Value) (cs : List Char) : Prop where
  wf : u.WellFormed
  type : u.type = s.type
  text : u.text? = some (.ofString (String.ofList cs) (s.text?.any CharString.isHashed))

theorem WellFormed.require_eq {c : Category} (wf : v.WellFormed) (member : v.type.belongs c = true) :
    v.require [c] = .ok () :=
  wf.require_iff.mpr (List.any_eq_true.mpr ⟨c, List.mem_singleton_self c, member⟩)

theorem AnyString.require_eq (string : s.AnyString) : s.require [.string] = .ok () :=
  string.wf.require_eq string.string

theorem AnyInt.require_eq (int : v.AnyInt) : v.require [.int] = .ok () := int.wf.require_eq int.int

theorem AnyString.ofText (content : String) (wide hashed : Bool) : (ofText content wide hashed).AnyString := by
  refine ⟨closed_wellFormed.ofText content wide hashed, ?_⟩
  cases wide <;> rfl

theorem chars_ofText (content : String) (wide hashed : Bool) :
    (ofText content wide hashed).chars = content.toList := rfl

/-- A string is its own model. -/
theorem AnyString.textLike_self (string : s.AnyString) : s.TextLike s s.chars := by
  obtain ⟨t, found⟩ := Option.isSome_iff_exists.mp (string.wf.isSome_text?.trans string.string)
  refine ⟨string.wf, rfl, ?_⟩
  unfold chars
  rw [found]
  exact congrArg some (string.wf.sound t found).eq_ofString

theorem textLike_setCharsLike (string : s.AnyString) (wf : result.WellFormed) (cs : List Char) :
    (result.setCharsLike s cs).TextLike s cs := by
  refine ⟨wf.setText _ _ _, ?_, rfl⟩
  have types : ∀ t : DataType, t.belongs .string = true →
      (if decide (t = .wstring) then DataType.wstring else .string) = t := by
    intro t member
    cases t <;> first | rfl | cases member
  exact (type_retype result _).trans (types s.type string.string)

namespace TextLike

theorem chars (like : u.TextLike s cs) : u.chars = cs := by
  unfold Value.chars
  rw [like.text]
  exact String.toList_ofList

theorem isHashed (like : u.TextLike s cs) :
    u.text?.any CharString.isHashed = s.text?.any CharString.isHashed := by
  rw [like.text]
  exact CharString.isHashed_ofString _ _

theorem anyString (like : u.TextLike s cs) (string : s.AnyString) : u.AnyString :=
  ⟨like.wf, like.type ▸ string.string⟩

theorem trans (like : u.TextLike v cs) (model : v.TextLike s ds) : u.TextLike s cs where
  wf := like.wf
  type := like.type.trans model.type
  text := by rw [like.text, model.isHashed]

/-- Of two values with the same model and the same characters, only the flags may differ. -/
theorem alike (first : u.TextLike s cs) (second : v.TextLike s cs) : u.Alike v where
  type := first.type.trans second.type.symm
  categories := by rw [first.wf.categories, second.wf.categories, first.type, second.type]
  payload := (Payload.eq_of_text? first.text).trans (Payload.eq_of_text? second.text).symm

end TextLike

/-! ## §3 Characters -/

/-- A CHAR or WCHAR whose code is that of the given character. -/
structure Names (c : Value) (ch : Char) : Prop where
  wf : c.WellFormed
  character : c.type.belongs .char = true
  code : c.toInt = ch.toNat

theorem Names.spelledText {c : Value} {ch : Char} (names : c.Names ch) : c.spelledText = [ch] := by
  obtain ⟨wf, character, code⟩ := names
  obtain ⟨type, _, ⟨shape, data⟩, _, _⟩ := c
  obtain rfl : shape = type.shape := wf.shape
  have read {width : Nat} (lt : width < 128) (w : BitVec width)
      (code : (Layout.widen false w).toInt = ch.toNat) : w.toNat = ch.toNat :=
    Int.ofNat_inj.mp ((Layout.toInt_widen false w lt).symm.trans code)
  cases type <;> try cases character
  case char =>
    have same : @BitVec.toNat 8 data = ch.toNat := read (by decide) _ code
    show [Char.ofNat (@BitVec.toNat 8 data)] = [ch]
    rw [same, Char.ofNat_toNat]
  case wchar =>
    have same : @BitVec.toNat 16 data = ch.toNat := read (by decide) _ code
    have valid : ch.toNat.isValidChar := ch.valid
    show (if (@BitVec.toNat 16 data).isValidChar then [Char.ofNat (@BitVec.toNat 16 data)] else []) = [ch]
    rw [same, if_pos valid, Char.ofNat_toNat]

end Value

end Plc
