import Plc.Library
import Plc.Proofs.Conversion
import Plc.Proofs.Operator.Drained

/-!
# Calls by name

Whatever a name stands for in a library, calling it empties the operand stack, and a call that fails
leaves the result as it was. This is shown for each standard operator and for conversions; libraries
only ever hold standard operators, under their own names or under others.

Main statements:

* `Stock.program_clears`: what a name does clears the stack, for every property that the writes of
  operators keep and fresh values have.
* `Stock.call_atomic`: the same told of the reply to a call.
-/

namespace Plc

open Call

namespace Library

variable {P : Value → Prop}

/-- The libraries of standard operators, some of which may also be there under further names. -/
inductive Stock : Library → Prop where
  | standard (mode : PowerMode) (profile : LiteralProfile) : Stock (Library.standard mode profile)
  | register {lib : Library} {known : String} {operator : Operator} (stock : Stock lib)
      (found : lib.find? known = some operator) (name : String) : Stock (lib.register name operator)

/-- Every operator of the library runs as a call of a kind. -/
def Each (K : Call → Prop) (lib : Library) : Prop := ∀ entry ∈ lib.entries, K entry.2.run

/-! ## §1 Registration -/

theorem mem_enter {key : List Char} {operator : Operator} {entry : List Char × Operator}
    {entries : List (List Char × Operator)} (mem : entry ∈ enter key operator entries) :
    entry = (key, operator) ∨ entry ∈ entries := by
  induction entries with
  | nil => exact Or.inl (List.mem_singleton.mp mem)
  | cons other rest ih =>
    unfold enter at mem
    split at mem
    -- The entry takes the place of the other one, or goes somewhere behind it.
    · rcases List.mem_cons.mp mem with rfl | mem
      · exact Or.inl rfl
      · exact Or.inr (List.mem_cons_of_mem other mem)
    · rcases List.mem_cons.mp mem with rfl | mem
      · exact Or.inr List.mem_cons_self
      · exact (ih mem).imp_right (List.mem_cons_of_mem other)

variable {K : Call → Prop}

theorem Each.register {lib : Library} (each : lib.Each K) {operator : Operator}
    (run : K operator.run) (name : String) : (lib.register name operator).Each K := by
  intro entry mem
  rcases mem_enter mem with rfl | mem
  · exact run
  · exact each entry mem

theorem mem_of_find? {lib : Library} {name : String} {operator : Operator}
    (found : lib.find? name = some operator) : (key name, operator) ∈ lib.entries := by
  obtain ⟨before, after, entries, _⟩ := List.lookup_eq_some_iff.mp found
  rw [entries]
  exact List.mem_append_right before List.mem_cons_self

theorem Each.find? {lib : Library} (each : lib.Each K) {name : String} {operator : Operator}
    (found : lib.find? name = some operator) : K operator.run :=
  each (key name, operator) (mem_of_find? found)

/-- Registering operators one after the other. -/
theorem Each.registerAll {lib : Library} (each : lib.Each K) {entries : List (String × Operator)}
    (runs : ∀ entry ∈ entries, K entry.2.run) :
    (entries.foldl (fun lib (name, operator) => lib.register name operator) lib).Each K := by
  induction entries generalizing lib with
  | nil => exact each
  | cons entry rest ih =>
    have registered := each.register (runs entry List.mem_cons_self) entry.1
    exact ih registered fun other mem => runs other (List.mem_cons_of_mem entry mem)

/-- An operator under a further name does what it did under the name it was found by. -/
theorem Stock.each {lib : Library} (stock : Stock lib)
    (standard : ∀ mode, ∀ entry ∈ standardEntries mode, K entry.2.run) : lib.Each K := by
  induction stock with
  | standard mode profile =>
    have empty : Each K { profile := profile } := fun _ mem => absurd mem List.not_mem_nil
    exact empty.registerAll (standard mode)
  | register stock found name ih => exact ih.register (ih.find? found) name

/-- What a name does: an operator, a conversion, or nothing but to drop the operands. -/
theorem Stock.program_of_each {lib : Library} (stock : Stock lib)
    (standard : ∀ mode, ∀ entry ∈ standardEntries mode, K entry.2.run)
    (conversion : ∀ c : Conversion, K (Operator.unary (c.apply lib.profile)).run)
    (unknown : K (do Call.flush; throw .elementNotFound)) (name : String) : K (lib.program name) := by
  unfold program
  split
  case h_1 operator found => exact (stock.each standard).find? found
  case h_2 =>
    split
    case h_1 operator found =>
      obtain ⟨c, _, rfl⟩ := Option.map_eq_some_iff.mp found
      exact conversion c
    case h_2 => exact unknown

/-! ## §2 The standard operators -/

open Operator in
theorem standardEntries_clear (closed : Value.Closed P) (mode : PowerMode) :
    ∀ entry ∈ standardEntries mode, Call.Clears P entry.2.run := by
  have stable := closed.toStable
  -- The families of operators that differ in a function, a direction or a relation only.
  have real (g : Double → Double) : Call.Clears P (unary (ofReal g)).run :=
    unary_clears fun a _ => ofReal_settles stable g a
  have shifting (d : Direction) : Call.Clears P (binary (shift d)).run :=
    binary_clears fun a n _ _ => shift_settles stable d a n
  have rotating (d : Direction) : Call.Clears P (binary (rotate d)).run :=
    binary_clears fun a n _ _ => rotate_settles stable d a n
  have logical (combine : Wide → Wide → Wide) : Call.Clears P (binary (bitwise combine)).run :=
    binary_clears fun a b _ _ => bitwise_settles stable combine a b
  have relating (relation : Relation) : Call.Clears P (binary (relate relation)).run :=
    binary_clears fun a b _ _ => relate_settles stable relation a b
  have selecting : Call.Clears P (ternary sel).run :=
    ternary_clears fun s a b _ first second => sel_settles s first second
  have limiting : Call.Clears P (ternary fun low value high => limit value low high).run :=
    ternary_clears fun low value high least middle greatest =>
      limit_settles middle least greatest
  simp only [standardEntries, List.forall_mem_cons]
  refine ⟨fold_clears stable _, fold_clears stable _,
    binary_clears fun a b _ _ => sub_settles stable a b,
    binary_clears fun a b _ _ => div_settles stable a b,
    binary_clears fun a b _ _ => mod_settles stable a b,
    binary_clears fun a b _ _ => expt_settles stable mode a b,
    unary_clears fun a _ => abs_settles stable a,
    real _, real _, real _, real _, real _, real _, real _, real _, real _, real _,
    binary_clears fun y x _ _ => atan2_settles stable y x,
    shifting _, shifting _, rotating _, rotating _, logical _, logical _, logical _,
    unary_clears fun a _ => complement_settles stable a,
    relating _, relating _, relating _, relating _, relating _, relating _,
    unary_clears fun a holds => move_settles holds, selecting, extreme_clears _, extreme_clears _,
    limiting, mux_clears,
    unary_clears fun s _ => len_settles stable s,
    binary_clears fun s n _ _ => left_settles stable s n,
    binary_clears fun s n _ _ => right_settles stable s n,
    ternary_clears fun s count position _ _ _ => mid_settles stable s count position,
    concat_clears stable,
    ternary_clears fun s text position _ _ _ => insert_settles stable s text position,
    ternary_clears fun s count position _ _ _ => delete_settles stable s count position,
    quaternary_clears fun s text count position => replace_settles stable s text count position,
    binary_clears fun s text _ _ => find_settles stable s text,
    binary_clears fun a b _ _ => addTime_settles stable a b,
    binary_clears fun a b _ _ => subTime_settles stable a b,
    binary_clears fun t factor _ _ => mulTime_settles stable t factor,
    binary_clears fun t divisor _ _ => divTime_settles stable t divisor,
    fun _ mem => absurd mem List.not_mem_nil⟩

/-! ## §3 Calls -/

/-- Whatever a name does, it clears the stack. -/
theorem Stock.program_clears {lib : Library} (stock : Stock lib) (closed : Value.Closed P)
    (name : String) : Call.Clears P (lib.program name) :=
  stock.program_of_each (standardEntries_clear closed)
    (fun c => unary_clears fun _ holds => Conversion.apply_settles closed c lib.profile holds)
    (clears_flush Program.settles_throw) name

/-- The two ends of a call whose name clears the stack. -/
theorem call_cases {lib : Library} {name : String} (clears : Call.Clears P (lib.program name))
    (result : Value) (operands : OperandStack) (holds : P result)
    (operands_hold : ∀ v ∈ operands.popOrder, P v) :
    (∃ result', lib.call name result operands = ⟨.ok (), result', .empty⟩ ∧ P result') ∨
      ∃ fault, lib.call name result operands = ⟨.error fault, result, .empty⟩ := by
  rcases clears ⟨result, operands⟩ holds operands_hold with ⟨result', run, kept⟩ | ⟨fault, run⟩
  · refine Or.inl ⟨result', ?_, kept⟩
    simp only [call, Program.status_of_ok run, Program.final_of_ok run]
  · refine Or.inr ⟨fault, ?_⟩
    simp only [call, Program.status_of_error run, Program.final_of_error run]

/-- Called on values with the property, an operator leaves a result with it. -/
theorem Stock.call_holds {lib : Library} (stock : Stock lib) (closed : Value.Closed P)
    (name : String) {result : Value} {operands : OperandStack} (holds : P result)
    (operands_hold : ∀ v ∈ operands.popOrder, P v) : P (lib.call name result operands).result := by
  rcases call_cases (stock.program_clears closed name) result operands holds operands_hold
    with ⟨result', reply, kept⟩ | ⟨fault, reply⟩
  · rw [reply]
    exact kept
  · rw [reply]
    exact holds

/-- After a call no operand is left, and a call that failed did not touch the result. -/
theorem Stock.call_atomic {lib : Library} (stock : Stock lib) (name : String) (result : Value)
    (operands : OperandStack) :
    (lib.call name result operands).operands = .empty ∧
      ∀ fault, (lib.call name result operands).status = .error fault →
        (lib.call name result operands).result = result := by
  have clears := stock.program_clears Value.closed_true name
  rcases call_cases clears result operands trivial fun _ _ => trivial
    with ⟨result', reply, _⟩ | ⟨fault, reply⟩
  · rw [reply]
    exact ⟨rfl, fun fault stopped => by cases stopped⟩
  · rw [reply]
    exact ⟨rfl, fun _ _ => rfl⟩

/-- DIV under a further name: division by zero leaves the text that is in the result. -/
theorem call_atomic_of_alias :
    let lib := (standard .power {}).register "Teile" (.binary Operator.div)
    let kept := Value.ofText "kept" true true
    let reply := lib.call "teile" kept (.ofList [.ofNumber .int (.ofInt 7), .zero .int])
    Stock lib ∧ reply.status = .error .notAllowedType ∧ reply.operands = .empty ∧
      reply.result = kept := by
  have found : (standard .power {}).find? "div" = some (.binary Operator.div) := rfl
  have stock := Stock.register (.standard .power {}) found "Teile"
  have atomic := stock.call_atomic "teile" (.ofText "kept" true true)
    (.ofList [.ofNumber .int (.ofInt 7), .zero .int])
  exact ⟨stock, rfl, atomic.1, atomic.2 .notAllowedType rfl⟩

end Library

end Plc
