import Plc.Proofs.Library

/-!
# The operator behind a name

The names of the standard operators are distinct, so each operator is found under its own name. What a
call replies is then the outcome of the operator, run on the containers of the caller.

Main statements:

* `find?_standard`: every entry of the list of standard operators is found under its name.
* `call_of_ok`, `call_of_error`: the reply of a found operator.
* `call_binary_of_ok`, `call_binary_of_error`: the reply of an operator of two operands.
-/

namespace Plc

namespace Library

variable {lib : Library} {name : String} {operator : Operator}

/-! ## §1 Lookup after registration -/

theorem lookup_enter_self (k : List Char) (operator : Operator)
    (entries : List (List Char × Operator)) : (enter k operator entries).lookup k = some operator := by
  induction entries with
  | nil => exact List.lookup_cons_self
  | cons entry rest ih =>
    unfold enter
    split
    case isTrue => exact List.lookup_cons_self
    case isFalse other =>
      have differ : (k == entry.1) = false := beq_eq_false_iff_ne.mpr (Ne.symm other)
      rw [List.lookup_cons, differ]
      exact ih

theorem lookup_enter_of_ne {k k' : List Char} (ne : k' ≠ k) (operator : Operator)
    (entries : List (List Char × Operator)) :
    (enter k operator entries).lookup k' = entries.lookup k' := by
  have skip (rest : List (List Char × Operator)) :
      List.lookup k' ((k, operator) :: rest) = rest.lookup k' := by
    rw [List.lookup_cons, beq_eq_false_iff_ne.mpr ne]
  induction entries with
  | nil => exact skip []
  | cons entry rest ih =>
    unfold enter
    split
    case isTrue same =>
      -- The entry that is replaced has the key of the new one, so neither is looked for.
      have differ : (k' == entry.1) = false := by
        rw [same]
        exact beq_eq_false_iff_ne.mpr ne
      rw [skip, List.lookup_cons, differ]
    case isFalse =>
      rw [List.lookup_cons, List.lookup_cons, ih]

theorem find?_register_self (lib : Library) (name : String) (operator : Operator) :
    (lib.register name operator).find? name = some operator :=
  lookup_enter_self (key name) operator lib.entries

theorem find?_register_of_ne {other : String} (ne : key name ≠ key other) (lib : Library)
    (operator : Operator) : (lib.register other operator).find? name = lib.find? name :=
  lookup_enter_of_ne ne operator lib.entries

/-- The entries registered later have other keys and leave the operator where it is. -/
theorem find?_registerAll_of_notMem {entries : List (String × Operator)}
    (absent : key name ∉ entries.map (key ·.1)) (lib : Library) :
    (entries.foldl (fun lib (name, operator) => lib.register name operator) lib).find? name =
      lib.find? name := by
  induction entries generalizing lib with
  | nil => rfl
  | cons entry rest ih =>
    have other : key name ≠ key entry.1 := List.ne_of_not_mem_cons absent
    have kept := ih (List.not_mem_of_not_mem_cons absent) (lib.register entry.1 entry.2)
    exact kept.trans (find?_register_of_ne other lib entry.2)

/-- Registered under distinct keys, every operator is found under its name. -/
theorem find?_registerAll {entries : List (String × Operator)}
    (distinct : (entries.map (key ·.1)).Nodup) (mem : (name, operator) ∈ entries) (lib : Library) :
    (entries.foldl (fun lib (name, operator) => lib.register name operator) lib).find? name =
      some operator := by
  induction entries generalizing lib with
  | nil => cases mem
  | cons entry rest ih =>
    obtain ⟨absent, distinct_rest⟩ := List.nodup_cons.mp distinct
    rcases List.mem_cons.mp mem with rfl | later
    · exact (find?_registerAll_of_notMem absent _).trans (find?_register_self lib name operator)
    · exact ih distinct_rest later _

theorem find?_standard {mode : PowerMode} (profile : LiteralProfile)
    (mem : (name, operator) ∈ standardEntries mode) :
    (standard mode profile).find? name = some operator := by
  have distinct : ((standardEntries mode).map (key ·.1)).Nodup := by
    cases mode <;> decide +kernel
  exact find?_registerAll distinct mem _

end Library

/-! ## §2 Runs on the containers of a call -/

namespace Call

theorem drainChecked_run {allowed : List Category} {first : Value} {rest : List Value}
    (pass : ∀ v ∈ first :: rest, v.belongsAny allowed = true) (result : Value) :
    (drainChecked allowed).run ⟨result, ⟨first :: rest⟩⟩ = .ok (first :: rest) ⟨result, .empty⟩ := by
  have checked : requireAll (first :: rest) allowed = .ok () := if_pos (List.all_eq_true.mpr pass)
  -- The stack is not empty, so the first check passes by computation.
  change ((liftM (requireAll (first :: rest) allowed) : Program Frame Unit) >>= fun _ =>
    pure (first :: rest)).run ⟨result, .empty⟩ = _
  rw [Program.run_check_of_ok checked]
  rfl

end Call

/-! ## §3 Replies -/

namespace Library

variable {lib : Library} {name : String} {operator : Operator}

theorem program_of_find? (found : lib.find? name = some operator) :
    lib.program name = operator.run := by
  unfold program
  rw [found]

/-- A name that no operator has may be that of a conversion. -/
theorem program_of_conversion {c : Conversion} (free : lib.find? name = none)
    (read : Conversion.ofName? (key name) = some c) :
    lib.program name = (Operator.unary (c.apply lib.profile)).run := by
  simp [Library.program, conversion?, free, read]

/-- The reply to a name is how the operator behind it ends on the containers of the caller. -/
theorem call_of_program_ok (behind : lib.program name = operator.run) {result result' : Value}
    {operands left : OperandStack}
    (run : operator.run.run ⟨result, operands⟩ = .ok () ⟨result', left⟩) :
    lib.call name result operands = ⟨.ok (), result', left⟩ := by
  rw [← behind] at run
  simp only [call, Program.status_of_ok run, Program.final_of_ok run]

theorem call_of_program_error (behind : lib.program name = operator.run) {result result' : Value}
    {operands left : OperandStack} {fault : Fault}
    (run : operator.run.run ⟨result, operands⟩ = .error fault ⟨result', left⟩) :
    lib.call name result operands = ⟨.error fault, result', left⟩ := by
  rw [← behind] at run
  simp only [call, Program.status_of_error run, Program.final_of_error run]

theorem call_of_ok (found : lib.find? name = some operator) {result result' : Value}
    {operands left : OperandStack}
    (run : operator.run.run ⟨result, operands⟩ = .ok () ⟨result', left⟩) :
    lib.call name result operands = ⟨.ok (), result', left⟩ :=
  call_of_program_ok (program_of_find? found) run

theorem call_of_error (found : lib.find? name = some operator) {result result' : Value}
    {operands left : OperandStack} {fault : Fault}
    (run : operator.run.run ⟨result, operands⟩ = .error fault ⟨result', left⟩) :
    lib.call name result operands = ⟨.error fault, result', left⟩ :=
  call_of_program_error (program_of_find? found) run

variable {apply : Value → Value → Action} {result result' a b : Value}

/-- An operator of two operands, with nothing below them on the stack, acts on the result. -/
theorem call_binary_of_ok (found : lib.find? name = some (.binary apply))
    (run : (apply a b).run result = .ok () result') :
    lib.call name result (.ofList [a, b]) = ⟨.ok (), result', .empty⟩ :=
  call_of_ok found (Call.onResult_of_ok .empty run)

theorem call_binary_of_error {fault : Fault} (found : lib.find? name = some (.binary apply))
    (run : (apply a b).run result = .error fault result') :
    lib.call name result (.ofList [a, b]) = ⟨.error fault, result', .empty⟩ :=
  call_of_error found (Call.onResult_of_error .empty run)

end Library

end Plc
