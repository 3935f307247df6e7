import Plc.Proofs.Conversion.Retyped
import Plc.Proofs.Library.Flags

/-!
# Types changed one after the other

Integers, bit strings of more than one bit and characters hand their number on when a value changes its
type. Each change reads the number with the sign of the old type and keeps the low bits that the new type
has room for. Signs are put on and taken off on the way, but no change touches the bits below the narrowest
width so far: what the value reads as stays the same modulo that width.

Main statements:

* `Value.SharesBits.retype`: one change of type.
* `Value.sharesBits_retypeAll`: any number of them.
* `Value.retypeAll_lossless`: a way back through types that are wide enough, and a single change.
-/

namespace Plc

/-! ## §1 Types that hand their number on -/

/-- Integers, bit strings of more than one bit, and characters. -/
def DataType.Transferable (t : DataType) : Prop := t.Integral ∨ t.belongs .char = true

instance (t : DataType) : Decidable t.Transferable := by
  unfold DataType.Transferable DataType.Integral
  infer_instance

example : DataType.all.filter (fun t => t.Transferable) =
    [.sint, .usint, .byte, .int, .uint, .word, .dint, .udint, .dword, .lint, .ulint, .lword, .char, .wchar] := by
  decide

theorem DataType.Transferable.isWord {t : DataType} (transferable : t.Transferable) : t.IsWord := by
  rcases transferable with integral | character
  · exact integral.isWord.1
  · cases t <;> first | rfl | cases character

namespace Value

variable {u v : Value} {t : DataType} {ts : List DataType} {width : Nat}

/-- A well-formed value of such a type. -/
structure Scalar (v : Value) : Prop where
  wf : v.WellFormed
  transferable : v.type.Transferable

namespace Scalar

theorem word (scalar : v.Scalar) : v.Word := ⟨scalar.wf, scalar.transferable.isWord⟩

theorem carriesNumber (scalar : v.Scalar) : v.carriesNumber = true := by
  have member {c : Category} (belongs : v.type.belongs c = true)
      (mem : c ∈ [Category.num, .bit, .magnitude, .char]) : v.carriesNumber = true :=
    Bool.or_eq_true_iff.mpr (Or.inr (scalar.wf.belongsAny (List.any_eq_true.mpr ⟨c, mem, belongs⟩)))
  rcases scalar.transferable with (int | ⟨bits, _⟩) | character
  · exact (AnyInt.mk scalar.wf int).carriesNumber
  · exact member bits (by simp)
  · exact member character (by simp)

/-- One change of type wraps the number to the new type. -/
theorem holds_retype (scalar : v.Scalar) (transferable : t.Transferable) : (v.retype t).Holds t v.toInt :=
  scalar.word.holds_retype scalar.carriesNumber transferable.isWord

theorem retype (scalar : v.Scalar) (transferable : t.Transferable) : (v.retype t).Scalar :=
  ⟨scalar.wf.retype t, by rw [type_retype]; exact transferable⟩

end Scalar

/-! ## §2 Chains -/

/-- The value after a change to each of the types, one after the other. -/
def retypeAll (v : Value) (ts : List DataType) : Value := ts.foldl retype v

/-- Of so many low bits, `u` has those of `v`, and the flags are the same. -/
structure SharesBits (width : Nat) (u v : Value) : Prop where
  scalar : u.Scalar
  modEq : u.toInt ≡ v.toInt [ZMOD 2 ^ width]
  flags : u.SameFlags v

theorem Scalar.sharesBits_self (scalar : v.Scalar) (width : Nat) : SharesBits width v v :=
  ⟨scalar, Int.ModEq.refl _, .refl v⟩

/-- A type that has room for the low bits keeps them, under whatever sign. -/
theorem SharesBits.retype (shares : SharesBits width u v) (transferable : t.Transferable)
    (le : width ≤ t.bitWidth) : SharesBits width (u.retype t) v where
  scalar := shares.scalar.retype transferable
  modEq := by
    have wrapped := (shares.scalar.holds_retype transferable).modEq
    exact (wrapped.of_dvd (pow_dvd_pow 2 le)).trans shares.modEq
  flags := (sameFlags_retype u t).trans shares.flags

/-- By induction on the types still to come, whatever the value has become so far. -/
theorem sharesBits_retypeAll (shares : SharesBits width u v)
    (wide : ∀ t ∈ ts, t.Transferable ∧ width ≤ t.bitWidth) : SharesBits width (u.retypeAll ts) v := by
  induction ts generalizing u with
  | nil => exact shares
  | cons t ts ih =>
    obtain ⟨transferable, le⟩ := wide t List.mem_cons_self
    exact ih (shares.retype transferable le) fun t mem => wide t (List.mem_cons_of_mem _ mem)

/-- As many low bits as the type is wide are all there is to the value. -/
theorem SharesBits.eq (shares : SharesBits v.type.bitWidth u v) (scalar : v.Scalar)
    (type : u.type = v.type) : u = v := by
  have holds : u.Holds v.type v.toInt := by
    have self := shares.scalar.word.holds_self
    rw [type] at self
    exact self.congr shares.modEq
  have alike := holds.alike scalar.transferable.isWord scalar.word.holds_self
  obtain ⟨_, _, _, _, _⟩ := u
  obtain ⟨rfl, rfl, rfl⟩ := alike
  obtain ⟨rfl, rfl⟩ := shares.flags
  rfl

/-- **Retyping.** A chain of changes through types at least as wide as that of the value gives the value
back once it has the first type again. A single change, to any width, wraps it. -/
theorem retypeAll_lossless (scalar : v.Scalar) :
    (∀ ts : List DataType, (∀ t ∈ ts, t.Transferable ∧ v.type.bitWidth ≤ t.bitWidth) →
      (v.retypeAll ts).type = v.type → v.retypeAll ts = v) ∧
    ∀ t : DataType, t.Transferable → (v.retype t).Holds t v.toInt ∧ (v.retype t).SameFlags v := by
  constructor
  · intro ts wide type
    exact (sharesBits_retypeAll (scalar.sharesBits_self _) wide).eq scalar type
  · intro t transferable
    exact ⟨scalar.holds_retype transferable, sameFlags_retype v t⟩

/-- A negative SINT is read as a character, as a word and as an integer on its way, and too short a type is
no way back. -/
theorem retypeAll_lossless_signs :
    let v := (ofNumber .sint (.ofInt (-100))).setAttribute .retain true
    v.retypeAll [.char, .lword, .dint, .byte, .ulint, .sint] = v ∧
      (v.retype .word).toInt = 65436 ∧
        ((ofNumber .int (.ofInt 300)).retype .char).toInt = 44 := by
  intro v
  have scalar : v.Scalar := ⟨closed_wellFormed.setAttribute _ _ _ (closed_wellFormed.ofNumber _ _),
    Or.inl (Or.inl rfl)⟩
  have scalar' : (ofNumber .int (.ofInt 300)).Scalar :=
    ⟨closed_wellFormed.ofNumber _ _, Or.inl (Or.inl rfl)⟩
  obtain ⟨back, single⟩ := retypeAll_lossless scalar
  refine ⟨back _ (by decide) (by decide +kernel), ?_, ?_⟩
  · exact (single .word (Or.inl (Or.inr ⟨rfl, rfl⟩))).1.toInt.trans (by decide +kernel)
  · exact ((retypeAll_lossless scalar').2 .char (Or.inr rfl)).1.toInt.trans (by decide +kernel)

end Value

end Plc
