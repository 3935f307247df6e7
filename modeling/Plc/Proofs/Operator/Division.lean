import Plc.Proofs.Operator.Aggregate

/-!
# Quotients and remainders of integers

DIV truncates toward zero, and MOD gives the remainder under the sign of the dividend. Both work on
wide words and are then wrapped to the higher-ranked type of the operands. What is lost there comes
back in the same way: the product of divisor and quotient, added to the remainder, is the dividend at
that type, also where the quotient does not fit it (the least integer by minus one) and where a
negative number is wrapped to an unsigned type.

Main statements:

* `Operator.div_run`, `Operator.mod_run`: what the two operators write into a NULL container.
* `Library.standard_divides`: what DIV and MOD reply, and what MUL and ADD make of their replies.
-/

namespace Plc

open Value

/-! ## §1 Wide words -/

namespace Number

theorem ne_zero_of_toInt {y : Wide} (nonzero : y.toInt ≠ 0) : y ≠ 0 := by
  rintro rfl
  exact nonzero BitVec.toInt_zero

theorem int_div (x y : Wide) (nonzero : y.toInt ≠ 0) :
    int x / int y = ofInt (x.toInt.tdiv y.toInt) := by
  change (if y = 0 then int 0 else int (x.sdiv y)) = _
  rw [if_neg (ne_zero_of_toInt nonzero)]
  -- Only the least word by minus one wraps here, and then both sides do.
  refine congrArg int (BitVec.eq_of_toInt_eq ?_)
  rw [BitVec.toInt_sdiv, BitVec.toInt_ofInt]

theorem int_rem (x y : Wide) (nonzero : y.toInt ≠ 0) :
    int x % int y = ofInt (x.toInt.tmod y.toInt) := by
  change (if y = 0 then int 0 else int (x.srem y)) = _
  rw [if_neg (ne_zero_of_toInt nonzero), ← BitVec.toInt_srem]
  exact congrArg int BitVec.ofInt_toInt.symm

theorem isZero_int (x : Wide) : (int x).isZero = true ↔ x.toInt = 0 := by
  have zero : (0 : Wide).toInt = 0 := BitVec.toInt_zero
  change (x == 0) = true ↔ _
  rw [beq_iff_eq, ← BitVec.toInt_inj, zero]

end Number

namespace Value.Word

variable {a b : Value}

theorem number_div (word : a.Word) (word' : b.Word) (nonzero : b.toInt ≠ 0) :
    a.number / b.number = .ofInt (a.toInt.tdiv b.toInt) := by
  rw [word.number_eq_int, word'.number_eq_int]
  exact Number.int_div _ _ nonzero

theorem number_rem (word : a.Word) (word' : b.Word) (nonzero : b.toInt ≠ 0) :
    a.number % b.number = .ofInt (a.toInt.tmod b.toInt) := by
  rw [word.number_eq_int, word'.number_eq_int]
  exact Number.int_rem _ _ nonzero

theorem number_rem_zero (word : a.Word) (word' : b.Word) (zero : b.toInt = 0) :
    a.number % b.number = .ofInt 0 := by
  have divisor : b.number = .int 0 := by
    rw [word'.number_eq, zero]
    rfl
  rw [word.number_eq_int, divisor]
  rfl

theorem isZero_number (word : b.Word) : b.number.isZero = true ↔ b.toInt = 0 := by
  rw [word.number_eq_int]
  exact Number.isZero_int _

end Value.Word

/-! ## §2 The two operators -/

/-- A container of type NULL is turned to whatever type is wanted, afresh. -/
theorem Value.widenTo_null (t : DataType) : Value.null.widenTo t = .zero t := by
  cases t <;> rfl

namespace Operator

variable {a b : Value}

theorem require_number (int : a.AnyInt) : a.require [.magnitude, .num] = .ok () :=
  if_pos (int.magnitude_belongsAny List.mem_cons_self)

theorem div_run_of_zero (int : a.AnyInt) (int' : b.AnyInt) (zero : b.toInt = 0) (result : Value) :
    (div a b).run result = .error .notAllowedType result := by
  have stopped : Fault.notAllowedType.when b.number.isZero = .error .notAllowedType :=
    if_pos (int'.word.isZero_number.mpr zero)
  unfold div
  rw [Program.run_check_of_ok (require_number int),
    Program.run_check_of_ok (require_number int'), Program.run_check_of_error stopped]

theorem div_run_of_int (int : a.AnyInt) (int' : b.AnyInt) (nonzero : b.toInt ≠ 0) (result : Value) :
    (div a b).run result = .ok () ((result.widenTo (a.type.wider b.type)).setNumber
      (if (result.widenTo (a.type.wider b.type)).belongsAny [.real] then a.number.toReal / b.number.toReal
        else .ofInt (a.toInt.tdiv b.toInt))) := by
  have passed : Fault.notAllowedType.when b.number.isZero = .ok () :=
    if_neg fun isZero => nonzero (int'.word.isZero_number.mp isZero)
  unfold div
  rw [Program.run_check_of_ok (require_number int), Program.run_check_of_ok (require_number int'),
    Program.run_check_of_ok passed, ← int.word.number_div int'.word nonzero]
  -- The checks have passed, and what is left only writes: it runs by computation.
  rfl

theorem div_run (int : a.AnyInt) (int' : b.AnyInt) (nonzero : b.toInt ≠ 0) :
    (div a b).run .null =
      .ok () (.ofNumber (a.type.wider b.type) (.ofInt (a.toInt.tdiv b.toInt))) := by
  have wide : (zero (a.type.wider b.type)).AnyInt :=
    ⟨wellFormed_zero _, DataType.int_wider int.int int'.int⟩
  have not_real := Bool.eq_false_iff.mp wide.not_real
  rw [div_run_of_int int int' nonzero, widenTo_null, if_neg not_real]
  rfl

theorem mod_run_of_int (int : a.AnyInt) (int' : b.AnyInt) (result : Value) :
    (mod a b).run result =
      .ok () ((result.widenTo (a.type.wider b.type)).setNumber (a.number % b.number)) := by
  have checked : a.require [.int] = .ok () := if_pos int.int_belongsAny
  have checked' : b.require [.int] = .ok () := if_pos int'.int_belongsAny
  unfold mod
  rw [Program.run_check_of_ok checked, Program.run_check_of_ok checked']
  rfl

theorem mod_run (int : a.AnyInt) (int' : b.AnyInt) :
    (mod a b).run .null = .ok () (.ofNumber (a.type.wider b.type) (a.number % b.number)) := by
  rw [mod_run_of_int int int', widenTo_null]
  rfl

end Operator

/-! ## §3 Calls to DIV and MOD, and back -/

namespace Library

variable {lib : Library} {a b : Value}

/-- Called with the operands pushed one after the other, on a container of type NULL, the library
gives the value. -/
def Computes (lib : Library) (name : String) (operands : List Value) (v : Value) : Prop :=
  lib.call name .null (.ofList operands) = ⟨.ok (), v, .empty⟩

/-- There is no quotient by zero, and the remainder is zero. -/
structure DividesByZero (lib : Library) (a b : Value) : Prop where
  div : ∀ result,
    lib.call "DIV" result (.ofList [a, b]) = ⟨.error .notAllowedType, result, .empty⟩
  mod : ∃ remainder, lib.Computes "MOD" [a, b] remainder ∧
    remainder.Holds (a.type.wider b.type) 0

/-- Quotient and remainder are exact, wrapped to the higher-ranked type, and give the dividend
back. -/
structure Divides (lib : Library) (a b quotient remainder : Value) : Prop where
  div : lib.Computes "DIV" [a, b] quotient
  mod : lib.Computes "MOD" [a, b] remainder
  quotient_holds : quotient.Holds (a.type.wider b.type) (a.toInt.tdiv b.toInt)
  remainder_holds : remainder.Holds (a.type.wider b.type) (a.toInt.tmod b.toInt)
  /-- Factors and terms may be pushed in either order. Only flags depend on which is popped first. -/
  restored : ∀ factors : List Value, factors.Perm [b, quotient] →
    ∃ product, lib.Computes "MUL" factors product ∧
      ∀ terms : List Value, terms.Perm [product, remainder] →
        ∃ sum, lib.Computes "ADD" terms sum ∧ sum.Alike (a.retype (a.type.wider b.type)) ∧
          (a.Unflagged → b.Unflagged → sum = a.retype (a.type.wider b.type))

theorem computes_pair {name : String} {combine : Number → Number → Number} {total : List Int → Int}
    (combines : Operator.Combines combine total)
    (found : lib.find? name = some (.variadic (Operator.fold combine))) {x y : Value}
    (int : x.AnyInt) (int' : y.AnyInt) {operands : List Value} (perm : operands.Perm [x, y]) :
    ∃ v, lib.Computes name operands v ∧ v.Holds (x.type.wider y.type) (total [x.toInt, y.toInt]) ∧
      (x.Unflagged → y.Unflagged → v.Unflagged) := by
  refine call_pair combines found int int' ?_ .null
  rw [OperandStack.popOrder_ofList]
  exact (List.reverse_perm operands).trans perm

/-- What wrapping took from the quotient and the remainder, it takes from the dividend. -/
theorem dividend_modEq {a b q r p width : Int} (quotient : q ≡ a.tdiv b [ZMOD width])
    (remainder : r ≡ a.tmod b [ZMOD width]) (product : p ≡ b * q [ZMOD width]) :
    p + r ≡ a [ZMOD width] :=
  calc p + r
    _ ≡ b * q + r [ZMOD width] := product.add_right r
    _ ≡ b * a.tdiv b + a.tmod b [ZMOD width] := (quotient.mul_left b).add remainder
    _ = a := Int.mul_tdiv_add_tmod a b

/-- Whatever computed them, a wrapped quotient and remainder give the dividend back. -/
theorem restored_of_holds (found_mul : lib.find? "MUL" = some (.variadic Operator.mul))
    (found_add : lib.find? "ADD" = some (.variadic Operator.add)) (int : a.AnyInt)
    (int' : b.AnyInt) {quotient remainder : Value}
    (quotient_holds : quotient.Holds (a.type.wider b.type) (a.toInt.tdiv b.toInt))
    (remainder_holds : remainder.Holds (a.type.wider b.type) (a.toInt.tmod b.toInt))
    {factors : List Value} (perm : factors.Perm [b, quotient]) :
    ∃ product, lib.Computes "MUL" factors product ∧
      (b.Unflagged → quotient.Unflagged → product.Unflagged) ∧
      ∀ terms : List Value, terms.Perm [product, remainder] →
        ∃ sum, lib.Computes "ADD" terms sum ∧ sum.Holds (a.type.wider b.type) a.toInt ∧
          (product.Unflagged → remainder.Unflagged → sum.Unflagged) := by
  have type := DataType.int_wider int.int int'.int
  obtain ⟨product, multiplied, product_holds, product_plain⟩ :=
    computes_pair Operator.combines_mul found_mul int' (quotient_holds.anyInt type) perm
  -- The quotient has the wider type already, so neither MUL nor ADD changes it.
  have wide : b.type.wider quotient.type = a.type.wider b.type := by
    rw [quotient_holds.type, DataType.wider_comm]
    exact DataType.wider_of_le (DataType.rank_le_wider_right _ _)
  rw [wide, List.prod_pair] at product_holds
  refine ⟨product, multiplied, product_plain, ?_⟩
  intro terms perm
  obtain ⟨sum, added, sum_holds, sum_plain⟩ := computes_pair Operator.combines_add found_add
    (product_holds.anyInt type) (remainder_holds.anyInt type) perm
  have same : product.type.wider remainder.type = a.type.wider b.type := by
    rw [product_holds.type, remainder_holds.type]
    exact DataType.wider_of_le (Nat.le_refl _)
  rw [same, List.sum_pair] at sum_holds
  have back := dividend_modEq quotient_holds.modEq remainder_holds.modEq product_holds.modEq
  exact ⟨sum, added, sum_holds.congr back, sum_plain⟩

theorem find?_div (mode : PowerMode) (profile : LiteralProfile) :
    (standard mode profile).find? "DIV" = some (.binary Operator.div) :=
  find?_standard profile (by simp [standardEntries])

theorem find?_mod (mode : PowerMode) (profile : LiteralProfile) :
    (standard mode profile).find? "MOD" = some (.binary Operator.mod) :=
  find?_standard profile (by simp [standardEntries])

theorem standard_divides_of_zero (mode : PowerMode) (profile : LiteralProfile) (int : a.AnyInt)
    (int' : b.AnyInt) (zero : b.toInt = 0) : DividesByZero (standard mode profile) a b where
  div result :=
    call_binary_of_error (find?_div mode profile) (Operator.div_run_of_zero int int' zero result)
  mod := by
    have run := Operator.mod_run int int'
    rw [int.word.number_rem_zero int'.word zero] at run
    exact ⟨_, call_binary_of_ok (find?_mod mode profile) run,
      Word.holds_ofNumber (DataType.isWord_of_int (DataType.int_wider int.int int'.int)) 0⟩

theorem standard_divides_of_ne (mode : PowerMode) (profile : LiteralProfile) (int : a.AnyInt)
    (int' : b.AnyInt) (nonzero : b.toInt ≠ 0) :
    ∃ quotient remainder, Divides (standard mode profile) a b quotient remainder := by
  have word := DataType.isWord_of_int (DataType.int_wider int.int int'.int)
  have quotient_holds := Word.holds_ofNumber word (a.toInt.tdiv b.toInt)
  have remainder_holds := Word.holds_ofNumber word (a.toInt.tmod b.toInt)
  have div_run := Operator.div_run int int' nonzero
  have mod_run := Operator.mod_run int int'
  rw [int.word.number_rem int'.word nonzero] at mod_run
  refine ⟨_, _, call_binary_of_ok (find?_div mode profile) div_run,
    call_binary_of_ok (find?_mod mode profile) mod_run, quotient_holds, remainder_holds, ?_⟩
  intro factors perm
  obtain ⟨product, multiplied, product_plain, back⟩ := restored_of_holds (find?_mul mode profile)
    (find?_add mode profile) int int' quotient_holds remainder_holds perm
  refine ⟨product, multiplied, ?_⟩
  intro terms perm
  obtain ⟨sum, added, sum_holds, sum_plain⟩ := back terms perm
  have type := DataType.int_wider int.int int'.int
  have alike := sum_holds.alike word (int.holds_retype type)
  refine ⟨sum, added, alike, fun plain plain' => alike.eq ?_ (plain.retype _)⟩
  -- The quotient and the remainder stand in fresh containers, which carry no flags.
  exact sum_plain (product_plain plain' (unflagged_ofNumber _ _)) (unflagged_ofNumber _ _)

/-- DIV and MOD on any two integers, and MUL and ADD on what they give. -/
theorem standard_divides (mode : PowerMode) (profile : LiteralProfile) (int : a.AnyInt)
    (int' : b.AnyInt) :
    (b.toInt = 0 → DividesByZero (standard mode profile) a b) ∧
      (b.toInt ≠ 0 →
        ∃ quotient remainder, Divides (standard mode profile) a b quotient remainder) :=
  ⟨standard_divides_of_zero mode profile int int', standard_divides_of_ne mode profile int int'⟩

/-- The least DINT by minus one does not fit DINT, and minus seven by three does not fit USINT. -/
theorem standard_divides_wrapped :
    let lib := standard .power {}
    let least := Value.ofNumber .dint (.ofInt (-2 ^ 31))
    let minus := Value.ofNumber .sint (.ofInt (-1))
    let seven := Value.ofNumber .sint (.ofInt (-7))
    let three := Value.ofNumber .usint (.ofInt 3)
    (∃ quotient remainder, Divides lib least minus quotient remainder ∧
      quotient.toInt = -2 ^ 31 ∧ remainder.toInt = 0) ∧
    (∃ quotient remainder, Divides lib seven three quotient remainder ∧
      quotient.toInt = 254 ∧ remainder.toInt = 255) ∧
    DividesByZero lib seven (.zero .ulint) := by
  intro lib least minus seven three
  have least_int : least.AnyInt := .ofNumber rfl _
  have minus_int : minus.AnyInt := .ofNumber rfl _
  have seven_int : seven.AnyInt := .ofNumber rfl _
  have three_int : three.AnyInt := .ofNumber rfl _
  have zero_int : (zero .ulint).AnyInt := ⟨wellFormed_zero .ulint, rfl⟩
  refine ⟨?_, ?_, (standard_divides .power {} seven_int zero_int).1 rfl⟩
  · obtain ⟨quotient, remainder, law⟩ :=
      (standard_divides .power {} least_int minus_int).2 (by decide +kernel)
    exact ⟨quotient, remainder, law, law.quotient_holds.toInt.trans (by decide +kernel),
      law.remainder_holds.toInt.trans (by decide +kernel)⟩
  · obtain ⟨quotient, remainder, law⟩ :=
      (standard_divides .power {} seven_int three_int).2 (by decide +kernel)
    exact ⟨quotient, remainder, law, law.quotient_holds.toInt.trans (by decide +kernel),
      law.remainder_holds.toInt.trans (by decide +kernel)⟩

end Library

end Plc
