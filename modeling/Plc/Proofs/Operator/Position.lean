import Plc.Proofs.Operator.CharString

/-!
# The positions of a string

MID, DELETE and REPLACE take a position by its integer, of whatever integer type it is, and a position that
is not among those of the string is refused. A string of characters has one position for each of them. An
empty string has no character, and for it every positive position stands for its end; so there is a position
in every string, though none of an empty one names anything.

Main statements:

* `Operator.startOf_eq`: the place of a position, and which positions have one.
* `Operator.Cuts.run_eq`: an operator that cuts a string, at any position.
* `Library.standard_locates`: what MID, DELETE and REPLACE make of every position.
* `Library.empty_not_refused`: an empty string does not refuse what names no character of it.
-/

namespace Plc

open Value

variable {s c l p : Value}

/-! ## §1 Positions that are taken -/

namespace Value

/-- The position names a character of the string; if there is none to name, it is any positive one. -/
def Admits (s : Value) (position : Int) : Prop :=
  1 ≤ position ∧ (s.chars ≠ [] → position ≤ s.chars.length)

instance (s : Value) (position : Int) : Decidable (s.Admits position) := by
  unfold Admits
  infer_instance

/-- The number of characters in front of a position, at most all of them. -/
def place (s : Value) (position : Int) : Nat := min (position - 1).toNat s.chars.length

end Value

namespace Operator

theorem startOf_eq (position : Int) (size : Nat) :
    startOf position size =
      if 1 ≤ position ∧ (0 < size → position ≤ size) then .ok (min (position - 1).toNat size)
      else .error .outOfRange := by
  unfold startOf
  dsimp only
  by_cases low : position - 1 < 0
  · rw [if_pos low, if_neg (by omega)]
  by_cases high : size ≤ (position - 1).toNat ∧ 0 < size
  · rw [if_neg low, if_pos high, if_neg (by omega)]
  · rw [if_neg low, if_neg high, if_pos (by omega)]

variable {f : Nat → List Char} {action : Action}

theorem Cuts.run_eq (cuts : Cuts s p f action) (result : Value) :
    action.run result =
      if s.Admits p.toInt then .ok () (result.setCharsLike s (f (s.place p.toInt)))
      else .error .outOfRange result := by
  have start : startOf p.toInt s.chars.length =
      if s.Admits p.toInt then .ok (s.place p.toInt) else .error .outOfRange := by
    rw [startOf_eq]
    simp only [List.length_pos_iff]
    rfl
  rw [cuts, start]
  by_cases taken : s.Admits p.toInt
  · rw [if_pos taken, if_pos taken]
  · rw [if_neg taken, if_neg taken]

end Operator

/-! ## §2 Calls -/

namespace Library

open Operator

variable {lib : Library} {name : String} {arity : Nat} {apply : Vector Value arity → Action}

/-- Called with the operands, the name takes the positions of the string and no others. Where it takes the
position, it gives a string like `s` with the characters that are made of its place. -/
structure LocatesAt (lib : Library) (name : String) (operands : List Value) (s p : Value)
    (f : Nat → List Char) : Prop where
  status : ∀ result, (lib.call name result (.ofList operands)).status =
    if s.Admits p.toInt then .ok () else .error .outOfRange
  fills : s.Admits p.toInt → lib.Fills name operands (·.TextLike s (f (s.place p.toInt)))
  refuses : ¬s.Admits p.toInt → lib.Refuses name operands .outOfRange

theorem locatesAt_fixed (string : s.AnyString) (found : lib.find? name = some (.fixed arity apply))
    (last : Vector Value arity) {f : Nat → List Char} (cuts : Cuts s p f (apply last)) :
    lib.LocatesAt name last.toList s p f where
  status result := by
    have reply := call_fixed found [] last result
    have run := cuts.run_eq result
    rw [show lib.call name result (.ofList last.toList) = _ from reply]
    split at run
    case isTrue taken => rw [if_pos taken, Program.status_of_ok run]
    case isFalse refused => rw [if_neg refused, Program.status_of_error run]
  fills taken := fills_like string found last fun result => (cuts.run_eq result).trans (if_pos taken)
  refuses refused := refuses_fixed found last fun result => (cuts.run_eq result).trans (if_neg refused)

section Standard

variable (mode : PowerMode) (profile : LiteralProfile)

theorem locatesAt_mid (string : s.AnyString) (count : l.AnyInt) (position : p.AnyInt) :
    (standard mode profile).LocatesAt "MID" [s, l, p] s p
      fun start => (s.chars.drop start).take l.toCount :=
  locatesAt_fixed string (find?_mid mode profile) #v[s, l, p] (mid_cuts string count position)

theorem locatesAt_delete (string : s.AnyString) (count : l.AnyInt) (position : p.AnyInt) :
    (standard mode profile).LocatesAt "DELETE" [s, l, p] s p
      fun start => Text.splice s.chars start l.toCount [] :=
  locatesAt_fixed string (find?_delete mode profile) #v[s, l, p] (delete_cuts string count position)

theorem locatesAt_replace (string : s.AnyString) (wf : c.WellFormed)
    (character : c.type.belongs .char = true) (count : l.AnyInt) (position : p.AnyInt) :
    (standard mode profile).LocatesAt "REPLACE" [s, c, l, p] s p
      fun start => Text.splice s.chars start l.toCount c.spelledText :=
  locatesAt_fixed string (find?_replace mode profile) #v[s, c, l, p]
    (replace_cuts string wf character count position)

/-- **Positions.** MID, DELETE and REPLACE take the positions of the characters of a string, and any
positive one in an empty string. At any other position they stop and leave the result as it was. -/
theorem standard_locates (string : s.AnyString) (wf : c.WellFormed)
    (character : c.type.belongs .char = true) (count : l.AnyInt) (position : p.AnyInt) :
    let lib := standard mode profile
    lib.LocatesAt "MID" [s, l, p] s p (fun start => (s.chars.drop start).take l.toCount) ∧
      lib.LocatesAt "DELETE" [s, l, p] s p (fun start => Text.splice s.chars start l.toCount []) ∧
      lib.LocatesAt "REPLACE" [s, c, l, p] s p
        (fun start => Text.splice s.chars start l.toCount c.spelledText) :=
  ⟨locatesAt_mid mode profile string count position, locatesAt_delete mode profile string count position,
    locatesAt_replace mode profile string wf character count position⟩

/-- Behind the last character there is no position, and the fifth one of an empty string is its end. -/
theorem standard_locates_end :
    let lib := standard .power {}
    let c := Value.ofNumber .wchar (.ofInt 0xDF)
    let int (n : Int) := Value.ofNumber .lint (.ofInt n)
    lib.Refuses "MID" [.ofText "grüße" true true, int (-2), int 6] .outOfRange ∧
      lib.Refuses "DELETE" [.ofText "" true true, int 2, int 0] .outOfRange ∧
      lib.Fills "REPLACE" [.ofText "" true true, c, int 2, int 5] (·.chars = ['ß']) := by
  intro lib c int
  have number (n : Int) : (int n).AnyInt := .ofNumber rfl _
  have locates (content : String) (l p : Int) :=
    standard_locates .power {} (.ofText content true true) ((wellFormed_zero .wchar).setNumber _) rfl
      (number l) (number p) (c := c)
  refine ⟨(locates "grüße" (-2) 6).1.refuses (by decide +kernel),
    (locates "" 2 0).2.1.refuses (by decide +kernel), ?_⟩
  refine ((locates "" 2 5).2.2.fills (by decide +kernel)).mono fun u like => like.chars.trans ?_
  decide +kernel

/-- The first character of an empty string is taken, skipped and replaced, though there is none. -/
theorem empty_not_refused :
    ¬∀ (mode : PowerMode) (profile : LiteralProfile) (s c l p result : Value), s.AnyString →
      c.WellFormed → c.type.belongs .char = true → l.AnyInt → p.AnyInt → result.WellFormed →
      ∀ call ∈ [("MID", [s, l, p]), ("DELETE", [s, l, p]), ("REPLACE", [s, c, l, p])],
        (standard mode profile).call call.1 result (.ofList call.2) = ⟨.error .outOfRange, result, .empty⟩ ↔
          p.toInt < 1 ∨ s.chars.length < p.toInt := by
  intro always
  let s := ofText "" false false
  let c := ofNumber .char (.ofInt 0x41)
  let one := ofNumber .int (.ofInt 1)
  have string : s.AnyString := .ofText "" false false
  have wf : c.WellFormed := (wellFormed_zero .char).setNumber _
  have number : one.AnyInt := .ofNumber rfl _
  have refused := (always .power {} s c one one .null string wf rfl number number (wellFormed_zero .null)
    _ List.mem_cons_self).mpr (Or.inr (by decide +kernel))
  have taken := (locatesAt_mid .power {} string number number).status .null
  rw [if_pos (by decide +kernel), refused] at taken
  cases taken

end Standard

end Library

end Plc
