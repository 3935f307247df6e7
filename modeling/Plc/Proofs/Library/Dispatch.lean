import Plc.Proofs.Call

/-!
# From a name to a function

A function can be called with its operands one by one, or its operands are pushed and its name is called.
For the operators of fixed arity the two come to the same. The name, in any letter case, hands the
function as many operands as it takes: those pushed last, in the order of pushing. What lies below them
is not looked at.

The functions are listed here once more, by the number of their operands and as they are called
directly. The list from which the library is built says how each name takes its operands off the stack;
that the two lists agree is what keeps operands from changing places.

Main statements:

* `Library.mem_standardEntries`, `Library.exists_direct`: the two lists have the same operators of fixed
  arity.
* `Call.takeLast_run`, `Call.takeLast_run_of_short`: what a call of fixed arity sees of the stack.
* `Library.fills_fixed`, `Library.refuses_fixed`: replies whatever the container.
* `Library.standard_dispatches`: calls by name and direct calls.
-/

namespace Plc

open Operator

/-! ## §1 Direct calls -/

/-- A function as it is called with its operands one by one. -/
inductive Direct where
  | unary (f : Value → Action)
  | binary (f : Value → Value → Action)
  | ternary (f : Value → Value → Value → Action)
  | quaternary (f : Value → Value → Value → Value → Action)

namespace Direct

/-- The number of operands that the function takes. -/
def arity : Direct → Nat
  | unary _ => 1
  | binary _ => 2
  | ternary _ => 3
  | quaternary _ => 4

/-- The function on its operands, the first one first. -/
def on : (f : Direct) → Vector Value f.arity → Action
  | unary f => fun (v : Vector Value 1) => f (v.get 0)
  | binary f => fun (v : Vector Value 2) => f (v.get 0) (v.get 1)
  | ternary f => fun (v : Vector Value 3) => f (v.get 0) (v.get 1) (v.get 2)
  | quaternary f => fun (v : Vector Value 4) => f (v.get 0) (v.get 1) (v.get 2) (v.get 3)

/-- The function as an operator on the stack. -/
def operator (f : Direct) : Operator := .fixed f.arity f.on

end Direct

/-- The number of operands that an operator takes off the stack, if it is always the same. -/
def Operator.arity? : Operator → Option Nat
  | fixed arity _ => some arity
  | variadic _ => none

namespace Library

/-- The functions of one operand. -/
def unaryFunctions : List (String × (Value → Action)) :=
  [("ABS", abs), ("SQRT", ofReal Binary.sqrt), ("LN", ofReal Binary.ln), ("LOG", ofReal Binary.log10),
    ("EXP", ofReal Binary.exp), ("SIN", ofReal Binary.sin), ("COS", ofReal Binary.cos),
    ("TAN", ofReal Binary.tan), ("ASIN", ofReal Binary.asin), ("ACOS", ofReal Binary.acos),
    ("ATAN", ofReal Binary.atan), ("NOT", complement), ("MOVE", move), ("LEN", len)]

/-- The functions of two operands. What EXPT computes is a matter of the settings. -/
def binaryFunctions (mode : PowerMode) : List (String × (Value → Value → Action)) :=
  [("SUB", sub), ("DIV", div), ("MOD", mod), ("EXPT", expt mode), ("ATAN2", atan2),
    ("SHL", shift .left), ("SHR", shift .right), ("ROL", rotate .left), ("ROR", rotate .right),
    ("AND", bitAnd), ("OR", bitOr), ("XOR", bitXor),
    ("GT", relate .gt), ("GE", relate .ge), ("EQ", relate .eq), ("LE", relate .le), ("LT", relate .lt),
    ("NE", relate .ne), ("LEFT", left), ("RIGHT", right), ("FIND", find),
    ("ADD_TIME", addTime), ("SUB_TIME", subTime), ("MUL_TIME", mulTime), ("DIV_TIME", divTime)]

/-- The functions of three operands. LIMIT takes the value between its bounds. -/
def ternaryFunctions : List (String × (Value → Value → Value → Action)) :=
  [("SEL", fun selector ifFalse ifTrue => sel selector ifFalse ifTrue),
    ("LIMIT", fun low value high => limit value low high),
    ("MID", fun s count position => mid s count position),
    ("INSERT", fun s text position => insert s text position),
    ("DELETE", fun s count position => delete s count position)]

/-- The functions of four operands. -/
def quaternaryFunctions : List (String × (Value → Value → Value → Value → Action)) :=
  [("REPLACE", fun s text count position => replace s text count position)]

/-- All functions of a fixed number of operands, by name. -/
def directFunctions (mode : PowerMode) : List (String × Direct) :=
  unaryFunctions.map (fun (name, f) => (name, .unary f)) ++
    (binaryFunctions mode).map (fun (name, f) => (name, .binary f)) ++
    ternaryFunctions.map (fun (name, f) => (name, .ternary f)) ++
    quaternaryFunctions.map (fun (name, f) => (name, .quaternary f))

/-! ## §2 The two lists -/

variable {mode : PowerMode} {name : String}

/-- Of either list, the part of one arity. Both are in the order of registration there. -/
theorem filter_arity (mode : PowerMode) {arity : Nat} (mem : arity ∈ [1, 2, 3, 4]) :
    (standardEntries mode).filter (fun entry => entry.2.arity? = some arity) =
      ((directFunctions mode).filter fun entry => entry.2.arity = arity).map
        fun entry => (entry.1, entry.2.operator) := by
  simp only [List.mem_cons, List.not_mem_nil, or_false] at mem
  rcases mem with rfl | rfl | rfl | rfl <;> rfl

/-- No standard operator takes any other number of operands. -/
theorem arity_mem {operator : Operator} (mem : (name, operator) ∈ standardEntries mode) {arity : Nat}
    (fixed : operator.arity? = some arity) : arity ∈ [1, 2, 3, 4] := by
  have each : (standardEntries mode).all (fun entry => entry.2.arity?.all (· ∈ [1, 2, 3, 4])) = true := by
    cases mode <;> rfl
  have here := List.all_eq_true.mp each _ mem
  rw [fixed] at here
  exact of_decide_eq_true here

/-- Every direct function is registered under its name. -/
theorem mem_standardEntries {f : Direct} (mem : (name, f) ∈ directFunctions mode) :
    (name, f.operator) ∈ standardEntries mode := by
  have arity : f.arity ∈ [1, 2, 3, 4] := by
    cases f <;> simp [Direct.arity]
  have listed : (name, f.operator) ∈
      ((directFunctions mode).filter fun entry => entry.2.arity = f.arity).map
        fun entry => (entry.1, entry.2.operator) :=
    List.mem_map.mpr ⟨(name, f), List.mem_filter.mpr ⟨mem, by simp⟩, rfl⟩
  rw [← filter_arity mode arity] at listed
  exact (List.mem_filter.mp listed).1

/-- Every standard operator of fixed arity is a direct function. -/
theorem exists_direct {operator : Operator} (mem : (name, operator) ∈ standardEntries mode) {arity : Nat}
    (fixed : operator.arity? = some arity) :
    ∃ f, (name, f) ∈ directFunctions mode ∧ f.operator = operator := by
  have listed : (name, operator) ∈
      (standardEntries mode).filter fun entry => entry.2.arity? = some arity :=
    List.mem_filter.mpr ⟨mem, by simp [fixed]⟩
  rw [filter_arity mode (arity_mem mem fixed)] at listed
  obtain ⟨⟨_, f⟩, found, same⟩ := List.mem_map.mp listed
  cases same
  exact ⟨f, (List.mem_filter.mp found).1, rfl⟩

end Library

/-! ## §3 The operands pushed last -/

/-- A stack of enough operands: those pushed last, and others below them. -/
theorem OperandStack.exists_last {count : Nat} {operands : OperandStack} (enough : count ≤ operands.size) :
    ∃ below, ∃ last : Vector Value count, operands = .ofList (below ++ last.toList) := by
  obtain ⟨popOrder⟩ := operands
  have length : (popOrder.take count).reverse.length = count := by
    rw [List.length_reverse]
    exact List.length_take_of_le enough
  refine ⟨(popOrder.drop count).reverse, ⟨⟨(popOrder.take count).reverse⟩, length⟩, ?_⟩
  have pops : (ofList ((popOrder.drop count).reverse ++ (popOrder.take count).reverse)).popOrder =
      popOrder := by
    simp [popOrder_ofList]
  exact congrArg OperandStack.mk pops.symm

namespace Call

variable {count : Nat}

/-- The stack is emptied before the operands are counted. -/
theorem takeLast_run_eq (result : Value) (operands : OperandStack) :
    (takeLast count).run ⟨result, operands⟩ =
      if short : operands.popOrder.length < count then .error .nullParameter ⟨result, .empty⟩
      else .ok (.ofFn fun i => operands.popOrder[count - 1 - i.val]) ⟨result, .empty⟩ := by
  by_cases short : operands.popOrder.length < count
  case pos =>
    simp [takeLast, drain, EStateM.run_bind, short]
    rfl
  case neg => simp [takeLast, drain, EStateM.run_bind, short]

theorem takeLast_run_of_short {operands : OperandStack} (short : operands.size < count)
    (result : Value) :
    (takeLast count).run ⟨result, operands⟩ = .error .nullParameter ⟨result, .empty⟩ := by
  rw [takeLast_run_eq]
  exact dif_pos short

/-- The operand pushed last is popped first, so the places are counted from the other end. -/
theorem takeLast_run (below : List Value) (last : Vector Value count) (result : Value) :
    (takeLast count).run ⟨result, .ofList (below ++ last.toList)⟩ = .ok last ⟨result, .empty⟩ := by
  have pops : (OperandStack.ofList (below ++ last.toList)).popOrder =
      last.toList.reverse ++ below.reverse := by
    simp [OperandStack.popOrder_ofList]
  have enough : ¬(last.toList.reverse ++ below.reverse).length < count := by
    simp
  have taken : (Vector.ofFn fun i : Fin count =>
      (last.toList.reverse ++ below.reverse)[count - 1 - i.val]) = last := by
    ext i lt
    -- Counted twice from the other end, a place is the place itself.
    have place : count - 1 - (count - 1 - i) = i := by omega
    have within : count - 1 - i < count := by omega
    simp [List.getElem_append, within, place]
  simp only [takeLast_run_eq, pops, dif_neg enough, taken]

end Call

namespace Library

variable {lib : Library} {name : String} {arity : Nat} {apply : Vector Value arity → Action}

section Behind

variable (behind : lib.program name = (Operator.fixed arity apply).run)
include behind

/-- With too few operands, an operator of fixed arity drops those that there are. -/
theorem call_program_of_short {operands : OperandStack} (short : operands.size < arity) (result : Value) :
    lib.call name result operands = ⟨.error .nullParameter, result, .empty⟩ := by
  apply call_of_program_error behind
  simp [Operator.run, EStateM.run_bind, Call.takeLast_run_of_short short]

/-- With enough operands, an operator of fixed arity acts on those pushed last. -/
theorem call_program (below : List Value) (last : Vector Value arity) (result : Value) :
    lib.call name result (.ofList (below ++ last.toList)) =
      ⟨(apply last).status result, (apply last).final result, .empty⟩ := by
  have taken : (Operator.fixed arity apply).run.run ⟨result, .ofList (below ++ last.toList)⟩ =
      (Call.onResult (apply last)).run ⟨result, .empty⟩ := by
    simp [Operator.run, EStateM.run_bind, Call.takeLast_run]
  cases run : (apply last).run result with
  | ok _ result' =>
    rw [Program.status_of_ok run, Program.final_of_ok run]
    exact call_of_program_ok behind (taken.trans (Call.onResult_of_ok .empty run))
  | error fault result' =>
    rw [Program.status_of_error run, Program.final_of_error run]
    exact call_of_program_error behind (taken.trans (Call.onResult_of_error .empty run))

end Behind

theorem call_fixed_of_short (found : lib.find? name = some (.fixed arity apply))
    {operands : OperandStack} (short : operands.size < arity) (result : Value) :
    lib.call name result operands = ⟨.error .nullParameter, result, .empty⟩ :=
  call_program_of_short (program_of_find? found) short result

theorem call_fixed (found : lib.find? name = some (.fixed arity apply)) (below : List Value)
    (last : Vector Value arity) (result : Value) :
    lib.call name result (.ofList (below ++ last.toList)) =
      ⟨(apply last).status result, (apply last).final result, .empty⟩ :=
  call_program (program_of_find? found) below last result

/-- Called on any well-formed container, the operator succeeds, and what it leaves there has the property. -/
def Fills (lib : Library) (name : String) (operands : List Value) (P : Value → Prop) : Prop :=
  ∀ result : Value, result.WellFormed →
    ∃ u, lib.call name result (.ofList operands) = ⟨.ok (), u, .empty⟩ ∧ P u

/-- Called on any container, the operator stops at the fault and leaves the container as it was. -/
def Refuses (lib : Library) (name : String) (operands : List Value) (fault : Fault) : Prop :=
  ∀ result, lib.call name result (.ofList operands) = ⟨.error fault, result, .empty⟩

theorem Fills.mono {operands : List Value} {P Q : Value → Prop} (fills : lib.Fills name operands P)
    (weaker : ∀ u, P u → Q u) : lib.Fills name operands Q := by
  intro result wf
  obtain ⟨u, reply, holds⟩ := fills result wf
  exact ⟨u, reply, weaker u holds⟩

theorem fills_fixed (found : lib.find? name = some (.fixed arity apply)) (last : Vector Value arity)
    {P : Value → Prop}
    (runs : ∀ result : Value, result.WellFormed → ∃ u, (apply last).run result = .ok () u ∧ P u) :
    lib.Fills name last.toList P := by
  intro result wf
  obtain ⟨u, run, holds⟩ := runs result wf
  have reply := call_fixed found [] last result
  rw [Program.status_of_ok run, Program.final_of_ok run] at reply
  exact ⟨u, reply, holds⟩

theorem refuses_fixed (found : lib.find? name = some (.fixed arity apply)) (last : Vector Value arity)
    {fault : Fault} (runs : ∀ result, (apply last).run result = .error fault result) :
    lib.Refuses name last.toList fault := by
  intro result
  have reply := call_fixed found [] last result
  rw [Program.status_of_error (runs result), Program.final_of_error (runs result)] at reply
  exact reply

/-! ## §4 The standard library -/

variable {spelling : String}

/-- Names that differ in the case of their letters only find the same operator. -/
theorem find?_congr (same : key spelling = key name) : lib.find? spelling = lib.find? name := by
  unfold find?
  rw [same]

/-- What is found was there before, or is one of the registered operators. -/
theorem mem_registerAll {entries : List (String × Operator)} {entry : List Char × Operator}
    (mem : entry ∈ (entries.foldl (fun lib (name, operator) => lib.register name operator) lib).entries) :
    entry ∈ lib.entries ∨ entry ∈ entries.map fun registered => (key registered.1, registered.2) := by
  induction entries generalizing lib with
  | nil => exact Or.inl mem
  | cons registered rest ih =>
    rcases ih mem with before | later
    · rcases mem_enter before with rfl | before
      · exact Or.inr List.mem_cons_self
      · exact Or.inl before
    · exact Or.inr (List.mem_cons_of_mem _ later)

theorem exists_of_find?_standard {mode : PowerMode} {profile : LiteralProfile} {operator : Operator}
    (found : (standard mode profile).find? name = some operator) :
    ∃ known, (known, operator) ∈ standardEntries mode ∧ key known = key name := by
  rcases mem_registerAll (mem_of_find? found) with before | registered
  · exact absurd before List.not_mem_nil
  · obtain ⟨⟨known, operator'⟩, mem, same⟩ := List.mem_map.mp registered
    obtain ⟨keys, rfl⟩ := Prod.mk.inj same
    exact ⟨known, mem, keys⟩

/-- Calling the name, in any letter case, is calling the function: on the operands pushed last, and
whatever lies below them. If there are not as many, the call fails. -/
structure Dispatches (lib : Library) (name : String) (f : Direct) : Prop where
  short : ∀ spelling, key spelling = key name → ∀ operands : OperandStack, operands.size < f.arity →
    ∀ result, lib.call spelling result operands = ⟨.error .nullParameter, result, .empty⟩
  direct : ∀ spelling, key spelling = key name →
    ∀ (below : List Value) (last : Vector Value f.arity) (result : Value),
      lib.call spelling result (.ofList (below ++ last.toList)) =
        ⟨(f.on last).status result, (f.on last).final result, .empty⟩

theorem dispatches_of_find? {f : Direct} (found : lib.find? name = some f.operator) :
    lib.Dispatches name f where
  short _ same _ short result := call_fixed_of_short ((find?_congr same).trans found) short result
  direct _ same below last result := call_fixed ((find?_congr same).trans found) below last result

/-- The standard operators of fixed arity are called by name as they are called directly, and there are
no others. -/
theorem standard_dispatches (mode : PowerMode) (profile : LiteralProfile) :
    (∀ name f, (name, f) ∈ directFunctions mode → (standard mode profile).Dispatches name f) ∧
      ∀ spelling arity apply, (standard mode profile).find? spelling = some (.fixed arity apply) →
        ∃ name f, (name, f) ∈ directFunctions mode ∧ key spelling = key name := by
  constructor
  · intro name f mem
    exact dispatches_of_find? (find?_standard profile (mem_standardEntries mem))
  · intro spelling arity apply found
    obtain ⟨known, mem, same⟩ := exists_of_find?_standard found
    obtain ⟨f, listed, _⟩ := exists_direct mem rfl
    exact ⟨known, f, listed, same.symm⟩

/-- LIMIT takes the value between the bounds, and a date below them is not looked at. -/
theorem standard_dispatches_limit :
    let lib := standard .legacyXor {}
    let int (n : Int) := Value.ofNumber .int (.ofInt n)
    lib.call "Limit" .null (.ofList [.zero .date, int 2, int 9, int 7]) = ⟨.ok (), int 7, .empty⟩ ∧
      lib.call "limit" (int 5) (.ofList [int 2, int 9]) = ⟨.error .nullParameter, int 5, .empty⟩ ∧
      lib.call "eXpT" .null (.ofList [.zero .date, int 6, int 5]) =
        ⟨(Operator.expt .legacyXor (int 6) (int 5)).status .null,
          (Operator.expt .legacyXor (int 6) (int 5)).final .null, .empty⟩ := by
  intro lib int
  have each := (standard_dispatches .legacyXor {}).1
  have limit := each "LIMIT" (.ternary fun low value high => Operator.limit value low high)
    (by simp [directFunctions, ternaryFunctions])
  have expt := each "EXPT" (.binary (Operator.expt .legacyXor))
    (by simp [directFunctions, binaryFunctions])
  have capitalized : key "Limit" = key "LIMIT" := by decide +kernel
  have lower : key "limit" = key "LIMIT" := by decide +kernel
  have mixed : key "eXpT" = key "EXPT" := by decide +kernel
  exact ⟨limit.direct "Limit" capitalized [.zero .date] #v[int 2, int 9, int 7] .null,
    limit.short "limit" lower (.ofList [int 2, int 9]) (by decide) (int 5),
    expt.direct "eXpT" mixed [.zero .date] #v[int 6, int 5] .null⟩

end Library

end Plc
