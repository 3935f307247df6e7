import Mathlib.Algebra.BigOperators.Group.List.Basic
import Mathlib.Data.List.Permutation
import Plc.Proofs.Call
import Plc.Proofs.Value.Word

/-!
# Sums and products of integers

ADD and MUL take in one operand after the other. The result so far is promoted to the type of the
operand, the two numbers are combined as wide words, and what comes out is narrowed to the type that
the result then has. So the type of the result only rises in rank, and no step loses anything modulo
the width of the type that accumulation began with, even where the wide words wrap.

Main statements:

* `Combines.holds_accumulate`: one step is exact, wrapped to the higher-ranked of the two types.
* `Combines.totals_foldl`: a run over any number of operands is exact modulo the first width.
* `Library.standard_aggregates`: the same told of calls to ADD and MUL.
-/

namespace Plc

open Value

namespace Operator

/-- Two numbers are combined to what `total` makes of them as integers, up to wide words wrapping;
and `total` may be taken two integers at a time, in any order and modulo any integer. -/
structure Combines (combine : Number → Number → Number) (total : List Int → Int) : Prop where
  single : ∀ n, total [n] = n
  pair : ∀ m n, combine (.ofInt m) (.ofInt n) = .ofInt (total [m, n])
  merge : ∀ m n rest, total (total [m, n] :: rest) = total (m :: n :: rest)
  congr : ∀ {width m n : Int} (rest : List Int),
    m ≡ n [ZMOD width] → total (m :: rest) ≡ total (n :: rest) [ZMOD width]
  perm : ∀ {ns ns' : List Int}, ns.Perm ns' → total ns = total ns'

theorem combines_add : Combines (· + ·) List.sum where
  single n := by simp
  pair m n := by
    rw [List.sum_pair]
    exact congrArg Number.int (BitVec.ofInt_add m n).symm
  merge m n rest := by simp [add_assoc]
  congr rest congruent := by
    rw [List.sum_cons, List.sum_cons]
    exact congruent.add_right rest.sum
  perm := List.Perm.sum_eq

theorem combines_mul : Combines (· * ·) List.prod where
  single n := by simp
  pair m n := by
    rw [List.prod_pair]
    exact congrArg Number.int (BitVec.ofInt_mul m n).symm
  merge m n rest := by simp [mul_assoc]
  congr rest congruent := by
    rw [List.prod_cons, List.prod_cons]
    exact congruent.mul_right rest.prod
  perm := List.Perm.prod_eq

/-- The result stands for the total of the operands, modulo the width of the first one, and is of the
highest-ranked of their types. -/
structure Totals (total : List Int → Int) (first : Value) (rest : List Value)
    (result : Value) : Prop where
  anyInt : result.AnyInt
  type_mem : ∃ v ∈ first :: rest, result.type = v.type
  rank_le : ∀ v ∈ first :: rest, v.type.rank ≤ result.type.rank
  modEq : result.toInt ≡ total ((first :: rest).map toInt) [ZMOD 2 ^ first.type.bitWidth]

variable {combine : Number → Number → Number} {total : List Int → Int}

/-! ## §1 One operand -/

/-- Neither promoting the result so far nor narrowing the new one loses anything modulo the new
width. -/
theorem Combines.holds_accumulate (combines : Combines combine total) {acc operand : Value}
    (int : acc.AnyInt) (int' : operand.AnyInt) :
    (accumulate combine acc operand).Holds (acc.type.wider operand.type)
      (total [acc.toInt, operand.toInt]) := by
  have type := DataType.int_wider int.int int'.int
  -- The result so far is reread at the new type, perhaps as a number of the other sign.
  have promoted : (acc.promote operand.type).Holds (acc.type.wider operand.type) acc.toInt := by
    rw [promote_eq]
    exact int.holds_retype type
  have word := (promoted.anyInt type).word
  have stored := word.holds_setNumber (total [(acc.promote operand.type).toInt, operand.toInt])
  rw [promoted.type, ← combines.pair, ← word.number_eq, ← int'.word.number_eq] at stored
  exact stored.congr (combines.congr _ promoted.modEq)

/-- The flags are those of the result so far. -/
theorem unflagged_accumulate (combine : Number → Number → Number) {acc : Value}
    (plain : acc.Unflagged) (operand : Value) : (accumulate combine acc operand).Unflagged := by
  have promoted := plain.retype (acc.type.wider operand.type)
  rw [← promote_eq] at promoted
  exact ⟨promoted.attributes, promoted.state⟩

/-! ## §2 A run of operands -/

/-- One step in front of a run: the type is one of three, and the width can only grow. -/
theorem Totals.cons (combines : Combines combine total) {acc operand next result : Value}
    {rest : List Value} (int : acc.AnyInt) (int' : operand.AnyInt)
    (step : next.Holds (acc.type.wider operand.type) (total [acc.toInt, operand.toInt]))
    (run : Totals total next rest result) : Totals total acc (operand :: rest) result where
  anyInt := run.anyInt
  type_mem := by
    obtain ⟨v, mem, type⟩ := run.type_mem
    rcases List.mem_cons.mp mem with rfl | later
    · -- No later operand raised the type, and the step took it from one of its two values.
      rw [type, step.type]
      rcases acc.type.wider_eq operand.type with same | same
      · exact ⟨acc, List.mem_cons_self, same⟩
      · exact ⟨operand, List.mem_cons_of_mem acc List.mem_cons_self, same⟩
    · exact ⟨v, List.mem_cons_of_mem acc (List.mem_cons_of_mem operand later), type⟩
  rank_le := by
    have wider_le := run.rank_le next List.mem_cons_self
    rw [step.type] at wider_le
    intro v mem
    rcases List.mem_cons.mp mem with rfl | mem
    · exact Nat.le_trans (DataType.rank_le_wider_left _ _) wider_le
    rcases List.mem_cons.mp mem with rfl | later
    · exact Nat.le_trans (DataType.rank_le_wider_right _ _) wider_le
    · exact run.rank_le v (List.mem_cons_of_mem next later)
  modEq := by
    have width_le : acc.type.bitWidth ≤ (acc.type.wider operand.type).bitWidth :=
      DataType.bitWidth_le_of_rank_le int.int (DataType.int_wider int.int int'.int)
        (DataType.rank_le_wider_left _ _)
    -- So what holds modulo the new width holds modulo the old one.
    have divides : (2 ^ acc.type.bitWidth : Int) ∣ 2 ^ (acc.type.wider operand.type).bitWidth :=
      pow_dvd_pow 2 width_le
    have later := run.modEq
    rw [step.type] at later
    calc result.toInt
      _ ≡ total (next.toInt :: rest.map toInt) [ZMOD 2 ^ acc.type.bitWidth] :=
          later.of_dvd divides
      _ ≡ total (total [acc.toInt, operand.toInt] :: rest.map toInt)
            [ZMOD 2 ^ acc.type.bitWidth] := combines.congr _ (step.modEq.of_dvd divides)
      _ = total ((acc :: operand :: rest).map toInt) := combines.merge _ _ _

/-- A run is exact modulo the width that it begins with: by induction on the operands still to be
taken in, whatever the result so far. -/
theorem Combines.totals_foldl (combines : Combines combine total) {acc : Value} (int : acc.AnyInt)
    {rest : List Value} (ints : ∀ v ∈ rest, v.AnyInt) :
    Totals total acc rest (rest.foldl (accumulate combine) acc) := by
  induction rest generalizing acc with
  | nil =>
    refine ⟨int, ⟨acc, List.mem_cons_self, rfl⟩, ?_, ?_⟩
    · intro v mem
      rw [List.mem_singleton.mp mem]
      exact Nat.le_refl acc.type.rank
    · rw [List.map_singleton, combines.single]
      exact Int.ModEq.refl acc.toInt
  | cons operand rest ih =>
    have int' := ints operand List.mem_cons_self
    have step := combines.holds_accumulate int int'
    have next := step.anyInt (DataType.int_wider int.int int'.int)
    exact Totals.cons combines int int' step
      (ih next fun v mem => ints v (List.mem_cons_of_mem operand mem))

/-- If no operand outranks the first one, nothing but the last wrapping stands between the result
and the total. -/
theorem Totals.holds {first : Value} {rest : List Value} {result : Value}
    (totals : Totals total first rest result)
    (highest : ∀ v ∈ rest, v.type.rank ≤ first.type.rank) :
    result.Holds first.type (total ((first :: rest).map toInt)) := by
  have type : result.type = first.type := by
    obtain ⟨v, mem, type⟩ := totals.type_mem
    have le : v.type.rank ≤ first.type.rank := by
      rcases List.mem_cons.mp mem with rfl | later
      · exact Nat.le_refl _
      · exact highest v later
    have ge := totals.rank_le first List.mem_cons_self
    rw [type] at ge ⊢
    exact DataType.rank_injective (Nat.le_antisymm le ge)
  have self := totals.anyInt.word.holds_self
  rw [type] at self
  exact self.congr totals.modEq

/-- Permuted operands of one type have the same total, so the results agree. -/
theorem Totals.payload_eq (combines : Combines combine total) {first first' result result' : Value}
    {rest rest' : List Value} (totals : Totals total first rest result)
    (totals' : Totals total first' rest' result') (same : ∀ v ∈ rest, v.type = first.type)
    (perm : (first' :: rest').Perm (first :: rest)) : result'.payload = result.payload := by
  have types : ∀ v ∈ first' :: rest', v.type = first.type := by
    intro v mem
    rcases List.mem_cons.mp (perm.mem_iff.mp mem) with rfl | other
    · rfl
    · exact same v other
  have type' : first'.type = first.type := types first' List.mem_cons_self
  have holds := totals.holds fun v mem => by rw [same v mem]
  have holds' := totals'.holds fun v mem => by
    rw [types v (List.mem_cons_of_mem first' mem), type']
  rw [type', combines.perm (perm.map toInt)] at holds'
  have word := totals.anyInt.word.type
  rw [holds.type] at word
  exact holds'.payload_eq word holds

/-! ## §3 The whole operator -/

/-- On operands that pass the check, the new result is a fold over them, whatever the old one was. -/
theorem fold_run (combine : Number → Number → Number) {first : Value} {rest : List Value}
    (pass : ∀ v ∈ first :: rest, v.belongsAny [.magnitude] = true) (result : Value) :
    (fold combine).run ⟨result, ⟨first :: rest⟩⟩ =
      .ok () ⟨rest.foldl (accumulate combine) first, .empty⟩ := by
  have folded := Program.run_forM_modify (accumulate combine) rest first
  unfold fold
  rw [EStateM.run_bind, Call.drainChecked_run pass]
  -- The old result is overwritten by the first operand before the others are taken in.
  exact Call.onResult_of_ok .empty folded

end Operator

/-! ## §4 Calls to ADD and MUL -/

namespace Library

open Operator

variable {lib : Library} {name : String} {combine : Number → Number → Number}
  {total : List Int → Int}

theorem find?_add (mode : PowerMode) (profile : LiteralProfile) :
    (standard mode profile).find? "ADD" = some (.variadic add) :=
  find?_standard profile (by simp [standardEntries])

theorem find?_mul (mode : PowerMode) (profile : LiteralProfile) :
    (standard mode profile).find? "MUL" = some (.variadic mul) :=
  find?_standard profile (by simp [standardEntries])

theorem call_fold (found : lib.find? name = some (.variadic (fold combine))) (result : Value)
    {first : Value} {rest : List Value} (ints : ∀ v ∈ first :: rest, v.AnyInt) :
    lib.call name result ⟨first :: rest⟩ =
      ⟨.ok (), rest.foldl (accumulate combine) first, .empty⟩ := by
  -- Integers pass the check of the operator, which is for magnitudes.
  have pass : ∀ v ∈ first :: rest, v.belongsAny [.magnitude] = true := by
    intro v mem
    exact (ints v mem).magnitude_belongsAny List.mem_cons_self
  exact call_of_ok found (fold_run combine pass result)

/-- Of two operands it does not matter which is popped first: the result is exact, wrapped to the
higher-ranked type. -/
theorem call_pair (combines : Combines combine total)
    (found : lib.find? name = some (.variadic (fold combine))) {x y : Value} (int : x.AnyInt)
    (int' : y.AnyInt) {operands : OperandStack} (perm : operands.popOrder.Perm [x, y])
    (result : Value) :
    ∃ v, lib.call name result operands = ⟨.ok (), v, .empty⟩ ∧
      v.Holds (x.type.wider y.type) (total [x.toInt, y.toInt]) ∧
      (x.Unflagged → y.Unflagged → v.Unflagged) := by
  have reply {u v : Value} (int : u.AnyInt) (int' : v.AnyInt) :
      lib.call name result ⟨[u, v]⟩ = ⟨.ok (), accumulate combine u v, .empty⟩ :=
    call_fold found result (List.forall_mem_cons.mpr ⟨int, List.forall_mem_singleton.mpr int'⟩)
  obtain ⟨popOrder⟩ := operands
  rcases List.perm_pair.mp perm with rfl | rfl
  · exact ⟨_, reply int int', combines.holds_accumulate int int',
      fun plain _ => unflagged_accumulate combine plain y⟩
  · have holds := combines.holds_accumulate int' int
    rw [DataType.wider_comm, combines.perm (List.Perm.swap _ _ _)] at holds
    exact ⟨_, reply int' int, holds, fun _ plain => unflagged_accumulate combine plain x⟩

/-- What an operator that totals its operands replies for the integers `first :: rest`, the one that
is popped first in front. -/
structure Aggregates (total : List Int → Int) (call : Value → OperandStack → Reply)
    (result first : Value) (rest : List Value) : Prop where
  status : (call result ⟨first :: rest⟩).status = .ok ()
  totals : Totals total first rest (call result ⟨first :: rest⟩).result
  /-- If no operand outranks the first one, the result is the total, wrapped to that type. -/
  wrapped : (∀ v ∈ rest, v.type.rank ≤ first.type.rank) →
    (call result ⟨first :: rest⟩).result.Holds first.type (total ((first :: rest).map toInt))
  /-- Operands all of one type may be pushed in any order, whatever the old result. -/
  permuted : (∀ v ∈ rest, v.type = first.type) → ∀ (result' : Value) (operands : OperandStack),
    operands.popOrder.Perm (first :: rest) →
      (call result' operands).result.payload = (call result ⟨first :: rest⟩).result.payload

theorem aggregates_of_find? (combines : Combines combine total)
    (found : lib.find? name = some (.variadic (fold combine))) (result : Value) {first : Value}
    {rest : List Value} (ints : ∀ v ∈ first :: rest, v.AnyInt) :
    Aggregates total (lib.call name) result first rest := by
  have run {first : Value} {rest : List Value} (ints : ∀ v ∈ first :: rest, v.AnyInt) :
      Totals total first rest (rest.foldl (accumulate combine) first) :=
    combines.totals_foldl (ints first List.mem_cons_self)
      fun v mem => ints v (List.mem_cons_of_mem first mem)
  have reply := call_fold found result ints
  refine ⟨?_, ?_, ?_, ?_⟩
  · rw [reply]
  · rw [reply]
    exact run ints
  · intro highest
    rw [reply]
    exact (run ints).holds highest
  · intro same result' operands perm
    obtain ⟨popOrder⟩ := operands
    cases popOrder with
    | nil =>
      -- A permutation of some operands is no empty stack.
      exact absurd perm.symm.eq_nil (List.cons_ne_nil first rest)
    | cons first' rest' =>
      have ints' : ∀ v ∈ first' :: rest', v.AnyInt := by
        intro v mem
        exact ints v (perm.mem_iff.mp mem)
      rw [reply, call_fold found result' ints']
      exact (run ints).payload_eq combines (run ints') same perm

/-- ADD and MUL on any integers are exact modulo the width of the operand that is popped first. -/
theorem standard_aggregates (mode : PowerMode) (profile : LiteralProfile) (result : Value)
    {first : Value} {rest : List Value} (ints : ∀ v ∈ first :: rest, v.AnyInt) :
    Aggregates List.sum ((standard mode profile).call "ADD") result first rest ∧
      Aggregates List.prod ((standard mode profile).call "MUL") result first rest := by
  constructor
  · exact aggregates_of_find? combines_add (find?_add mode profile) result ints
  · exact aggregates_of_find? combines_mul (find?_mul mode profile) result ints

/-- The square of the greatest ULINT is too large for a wide word, and the product is right still. -/
theorem standard_aggregates_overflow :
    let big := Value.ofNumber .ulint (.ofInt (2 ^ 64 - 1))
    let small := Value.ofNumber .sint (.ofInt (-3))
    let reply := (standard .power {}).call "MUL" .null ⟨[big, big, small]⟩
    (∀ v ∈ [big, big, small], v.AnyInt) ∧ 2 ^ 127 ≤ big.toInt * big.toInt ∧
      reply.status = .ok () ∧ reply.result.type = .ulint ∧ reply.result.toInt = 2 ^ 64 - 3 := by
  intro big small reply
  have big_int : big.AnyInt := .ofNumber rfl _
  have small_int : small.AnyInt := .ofNumber rfl _
  have ints : ∀ v ∈ [big, big, small], v.AnyInt := by
    simp [big_int, small_int]
  have law : Aggregates List.prod ((standard .power {}).call "MUL") .null big [big, small] :=
    (standard_aggregates .power {} .null ints).2
  have holds := law.wrapped (by decide +kernel)
  exact ⟨ints, by decide +kernel, law.status, holds.type, holds.toInt.trans (by decide +kernel)⟩

end Library

end Plc
