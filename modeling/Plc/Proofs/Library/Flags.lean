import Plc.Proofs.Library.Dispatch
import Plc.Proofs.Value.Word

/-!
# Whose flags the result has

A call changes the attributes and the state flags of the result in one of four ways. Most operators write
into the result and leave its flags alone. Sums and products start from the first popped operand and keep
its flags, while selections hand over one of the operands as it is. A conversion by value takes the flags
of its operand along, unless a text is on either side: then the result is a fresh value.

Main statements:

* `Literal.unflagged_of_value?`: what a literal denotes has no flag set.
* `Call.fixed_keeps`: an operator of fixed arity that settles in place keeps the flags of the result.
* `Library.Stock.call_flags`: the flags after every successful call.
-/

namespace Plc

open Program

/-! ## §1 Values of the same flags -/

/-- Both values have the same attributes and the same state flags. -/
structure Value.SameFlags (u v : Value) : Prop where
  attributes : u.attributes = v.attributes
  state : u.state = v.state

namespace Value

theorem SameFlags.refl (v : Value) : v.SameFlags v := ⟨rfl, rfl⟩

theorem SameFlags.trans {u v w : Value} (first : u.SameFlags v) (second : v.SameFlags w) :
    u.SameFlags w :=
  ⟨first.attributes.trans second.attributes, first.state.trans second.state⟩

theorem sameFlags_retype (v : Value) (t : DataType) : (v.retype t).SameFlags v :=
  ⟨attributes_retype v t, state_retype v t⟩

/-- No write of an operator touches the flags. -/
theorem stable_sameFlags (w : Value) : Stable (·.SameFlags w) where
  retype v t same := (sameFlags_retype v t).trans same
  setNumber _ _ same := ⟨same.attributes, same.state⟩
  setText v _ wide _ same :=
    have retyped := (sameFlags_retype v (if wide then .wstring else .string)).trans same
    ⟨retyped.attributes, retyped.state⟩
  setDuration v _ same :=
    have retyped := (sameFlags_retype v .time).trans same
    ⟨retyped.attributes, retyped.state⟩

theorem Unflagged.of_sameFlags {u v : Value} (plain : v.Unflagged) (same : u.SameFlags v) :
    u.Unflagged :=
  ⟨same.attributes.trans plain.attributes, same.state.trans plain.state⟩

theorem unflagged_zero (t : DataType) : (zero t).Unflagged := ⟨rfl, rfl⟩

theorem unflagged_ofText (content : String) (wide hashed : Bool) :
    (ofText content wide hashed).Unflagged :=
  (unflagged_zero .null).of_sameFlags
    ((stable_sameFlags null).setText null content wide hashed (.refl null))

/-- The values with a text are those of the string types. -/
theorem WellFormed.isSome_text? {v : Value} (wf : v.WellFormed) :
    v.text?.isSome = v.type.isCharString := by
  obtain ⟨type, _, ⟨shape, data⟩, _, _⟩ := v
  obtain rfl : shape = type.shape := wf.shape
  cases type <;> rfl

end Value

/-- A literal denotes a fresh value. -/
theorem Literal.unflagged_of_value? {literal : Literal} {profile : LiteralProfile} {v : Value}
    (found : literal.value? profile = some v) : v.Unflagged := by
  rcases value?_cases found with ⟨t, n, _, _, rfl⟩ | ⟨d, _, rfl⟩ | ⟨t, p, _, _, made⟩
  case inl => exact Value.unflagged_ofNumber t n
  case inr.inl =>
    exact (Value.unflagged_zero .time).of_sameFlags
      ((Value.stable_sameFlags (.zero .time)).setDuration _ d (.refl _))
  case inr.inr =>
    unfold typed? Value.setPayload? at made
    split at made
    · cases made
      exact ⟨rfl, rfl⟩
    · cases made

namespace Operator

/-- What is read from a text is a fresh value. -/
theorem unflagged_of_ofText {text : CharString} {target : DataType} {profile : LiteralProfile}
    {v : Value} (found : ofText text target profile = .ok v) : v.Unflagged := by
  unfold ofText at found
  split at found
  case isTrue =>
    cases found
    exact Value.unflagged_ofText _ _ _
  case isFalse =>
    cases parsed : Literal.parse text.chars profile with
    | ok read =>
      rw [parsed] at found
      cases found
      obtain ⟨literal, _, denoted⟩ := Literal.exists_of_parse parsed
      exact (Literal.unflagged_of_value? denoted).retype target
    | error fault =>
      rw [parsed] at found
      cases found

/-- A conversion by value makes a fresh value, unless neither side is a string. -/
theorem flags_of_converted {profile : LiteralProfile} {target : DataType} {a v : Value}
    (wf : a.WellFormed) (found : converted profile target a = .ok v) :
    if a.type.isCharString || target.isCharString then v.Unflagged else v.SameFlags a := by
  rw [← wf.isSome_text?]
  unfold converted at found
  split at found
  case h_1 text read =>
    rw [read]
    exact unflagged_of_ofText found
  case h_2 read =>
    rw [read]
    -- The operand is no string, so the target decides.
    split at found
    case isTrue string =>
      cases found
      rw [string]
      exact Value.unflagged_ofText _ _ _
    case isFalse other =>
      cases found
      rw [Bool.eq_false_of_not_eq_true other]
      exact Value.sameFlags_retype a target

/-- One of the inputs is handed over. -/
theorem sel_leaves {P : Value → Prop} {selector ifFalse ifTrue : Value} (first : P ifFalse)
    (second : P ifTrue) : Leaves (fun _ after => P after) (sel selector ifFalse ifTrue) := by
  apply leaves_check
  intro _ _
  apply leaves_set
  intro _
  split
  · exact second
  · exact first

/-- The value or one of its bounds is handed over. -/
theorem limit_leaves {P : Value → Prop} {value low high : Value} (least : P low) (middle : P value)
    (greatest : P high) : Leaves (fun _ after => P after) (limit value low high) := by
  refine leaves_check fun _ _ => leaves_check fun _ _ => leaves_check fun _ _ => ?_
  apply leaves_set
  intro _
  split
  · exact least
  · split
    · exact greatest
    · exact middle

end Operator

/-! ## §2 What calls do to the flags -/

/-- Whose flags the result has after a call. -/
inductive FlagEffect where
  /-- The result keeps its flags. -/
  | kept
  /-- The result has the flags of the operand popped first. -/
  | ofFirst
  /-- The result is one of the operands, with its type, its flags and its content. -/
  | copied
  /-- The result has the flags of its operand, or none if one side is a string. -/
  | converted (target : DataType)
  deriving DecidableEq

/-- The effect holds between the operands in the order of popping and the result before and after. -/
def FlagEffect.Holds : FlagEffect → List Value → Value → Value → Prop
  | kept, _, before, after => after.SameFlags before
  | ofFirst, popped, _, after => ∃ first, popped.head? = some first ∧ after.SameFlags first
  | copied, popped, _, after => after ∈ popped
  | converted target, popped, _, after => ∃ operand, popped.head? = some operand ∧
      if operand.type.isCharString || target.isCharString then after.Unflagged
      else after.SameFlags operand

namespace Call

/-- Where the call succeeds on well-formed operands, the effect holds. -/
def Flags (effect : FlagEffect) (call : Call) : Prop :=
  Leaves (fun before after => (∀ v ∈ before.operands.popOrder, v.WellFormed) →
    effect.Holds before.operands.popOrder before.result after.result) call

variable {effect : FlagEffect} {R : Value → Value → Prop}

/-! ### Once the operands are off the stack -/

theorem onResult_leaves {action : Action} (leaves : Leaves R action) :
    Leaves (fun before after => R before.result after.result) (onResult action) := by
  intro frame _ frame' run
  cases acted : action.run frame.result with
  | ok _ result =>
    rw [onResult_of_ok frame.operands acted] at run
    cases run
    exact leaves _ _ _ acted
  | error fault result =>
    rw [onResult_of_error frame.operands acted] at run
    cases run

theorem flags_drain {f : List Value → Call}
    (rest : ∀ popped, (∀ v ∈ popped, v.WellFormed) →
      Leaves (fun before after => effect.Holds popped before.result after.result) (f popped)) :
    Flags effect (drain >>= f) :=
  fun frame a frame' run wf =>
    rest frame.operands.popOrder wf ⟨frame.result, .empty⟩ a frame' run

/-- The stack drained and its operands checked: there is a first one. -/
theorem flags_drainChecked {allowed : List Category} {f : List Value → Call}
    (rest : ∀ first others, Leaves (fun before after =>
      effect.Holds (first :: others) before.result after.result) (f (first :: others))) :
    Flags effect (drainChecked allowed >>= f) := by
  unfold drainChecked
  simp only [bind_assoc, pure_bind]
  apply flags_drain
  intro popped _
  apply leaves_check
  intro _ some
  cases popped with
  | nil => cases some
  | cons first others => exact leaves_check fun _ _ => rest first others

/-- The last operands taken, and others below them that are dropped. -/
theorem flags_takeLast {count : Nat} {f : Vector Value count → Call}
    (rest : ∀ (below : List Value) (last : Vector Value count), (∀ v ∈ last, v.WellFormed) →
      Leaves (fun before after =>
        effect.Holds (last.toList.reverse ++ below) before.result after.result) (f last)) :
    Flags effect (takeLast count >>= f) := by
  rintro ⟨before, operands⟩ _ frame' run wf
  rw [EStateM.run_bind] at run
  by_cases enough : count ≤ operands.size
  case pos =>
    obtain ⟨below, last, rfl⟩ := OperandStack.exists_last enough
    rw [takeLast_run] at run
    have pops : (OperandStack.ofList (below ++ last.toList)).popOrder =
        last.toList.reverse ++ below.reverse := by
      simp [OperandStack.popOrder_ofList]
    rw [pops] at wf ⊢
    exact rest below.reverse last (fun v mem => wf v (by simp [mem])) ⟨before, .empty⟩ _ _ run
  case neg =>
    rw [takeLast_run_of_short (Nat.not_le.mp enough)] at run
    cases run

/-! ### Operators of fixed arity -/

/-- What keeps every property that writes keep, keeps the flags. -/
theorem keeps_of_settles {action : Action} (settles : ∀ {P}, Value.Stable P → Settles P action) :
    Leaves (fun before after : Value => after.SameFlags before) action :=
  leaves_of_settles Value.SameFlags.refl fun v => settles (Value.stable_sameFlags v)

variable {arity : Nat} {apply : Vector Value arity → Action}

/-- An operator that settles in place keeps the flags of the result. -/
theorem fixed_keeps
    (settles : ∀ operands {P}, Value.Stable P → Settles P (apply operands)) :
    Flags .kept (Operator.fixed arity apply).run :=
  flags_takeLast fun _ last _ => onResult_leaves (keeps_of_settles (settles last))

/-- An operator that hands over one of its operands. -/
theorem fixed_copies (copies : ∀ operands, Leaves (fun _ after => after ∈ operands) (apply operands)) :
    Flags .copied (Operator.fixed arity apply).run := by
  apply flags_takeLast
  intro below last _
  apply onResult_leaves
  intro before a after run
  have mem : after ∈ last := copies last before a after run
  simp [FlagEffect.Holds, mem]

/-! ### Operators that take all operands -/

/-- The first operand is put into the result, and the others are combined with it there. -/
theorem fold_flags (combine : Number → Number → Number) : Flags .ofFirst (Operator.fold combine) := by
  apply flags_drainChecked
  intro first others
  have starts : Leaves (fun _ after => after = first) (set first : Action) := leaves_set fun _ => rfl
  have combines : Leaves (fun before after : Value => after.SameFlags before)
      (others.forM fun operand => modify (Operator.accumulate combine · operand)) := by
    apply keeps_of_settles
    intro P stable
    exact (writes_forM fun operand _ => writes_modify fun acc holds =>
      stable.setNumber _ _ (stable.promote acc operand.type holds)).settles
  apply onResult_leaves
  refine leaves_bind starts (fun _ => combines) ?_
  rintro _ _ after rfl same
  exact ⟨_, rfl, same⟩

theorem extreme_flags (wanted : Ordering) : Flags .copied (Operator.extreme wanted) := by
  apply flags_drainChecked
  intro first others
  apply onResult_leaves
  apply leaves_set
  intro _
  exact best_keeps wanted List.mem_cons_self fun v mem => List.mem_cons_of_mem first mem

theorem concat_flags : Flags .kept Operator.concat := by
  apply flags_drainChecked
  intro first others
  apply onResult_leaves
  apply leaves_modify
  intro before
  exact (Value.stable_sameFlags before).setText before _ _ _ (.refl before)

theorem choose_flags (selector : Value) : Flags .copied (Operator.choose selector) := by
  unfold Operator.choose
  split
  case h_1 fault _ =>
    intro _ _ _ run
    cases run
  case h_2 =>
    apply flags_drain
    intro popped _
    split
    case h_1 input found =>
      apply onResult_leaves
      apply leaves_set
      intro _
      exact mem_of_pick? found
    case h_2 => exact leaves_throw _

/-- A call on operands of its own, which are those that the effect is about. -/
theorem withOperands_flags {operands : OperandStack} {call : Call} (flags : Flags effect call)
    (wf : ∀ v ∈ operands.popOrder, v.WellFormed) :
    Leaves (fun before after => effect.Holds operands.popOrder before.result after.result)
      (withOperands operands call) := by
  intro frame _ frame' run
  cases called : call.run ⟨frame.result, operands⟩ with
  | ok _ inner =>
    rw [withOperands_of_ok called] at run
    cases run
    exact flags _ _ _ called wf
  | error fault inner =>
    rw [withOperands_of_error called] at run
    cases run

theorem mux_flags : Flags .copied Operator.mux := by
  apply flags_drain
  intro popped wf
  split
  case h_1 => exact leaves_throw _
  case h_2 selector inputs reversed =>
    have wf_inputs : ∀ v ∈ (OperandStack.ofList inputs.reverse).popOrder, v.WellFormed :=
      fun v mem => wf v (mem_of_inputs reversed mem)
    intro before _ after run
    exact mem_of_inputs reversed (withOperands_flags (choose_flags selector) wf_inputs _ _ _ run)

end Call

/-! ## §3 Conversions -/

/-- The only operand is the one that is popped first. -/
theorem head?_popped (below : List Value) (last : Vector Value 1) :
    (last.toList.reverse ++ below).head? = last[0]? := by
  obtain ⟨⟨operands⟩, length⟩ := last
  obtain ⟨a, rfl⟩ := List.length_eq_one_iff.mp length
  rfl

namespace Conversion

/-- A conversion by value makes the result a copy of a value of its own; the other kinds write into it. -/
def effect (c : Conversion) : FlagEffect :=
  match c.kind with
  | .convert => .converted c.target
  | _ => .kept

theorem apply_flags (c : Conversion) (profile : LiteralProfile) :
    Call.Flags c.effect (Operator.unary (c.apply profile)).run := by
  obtain ⟨source, kind, target⟩ := c
  cases kind with
  | ofBcd =>
    exact Call.fixed_keeps fun v _ stable =>
      settles_check fun _ _ => Operator.ofBcd_settles stable target v[0]
  | toBcd =>
    exact Call.fixed_keeps fun v _ stable =>
      settles_check fun _ _ => Operator.toBcd_settles stable target v[0]
  | truncate =>
    exact Call.fixed_keeps fun v _ stable =>
      settles_check fun _ _ => Operator.truncate_settles stable target v[0]
  | convert =>
    apply Call.flags_takeLast
    intro below last wf
    apply Call.onResult_leaves
    -- The source type, the guard and the target are looked at before the value is made.
    refine leaves_check fun _ _ => leaves_check fun _ _ => leaves_check fun _ _ => ?_
    refine leaves_check fun v found => leaves_set fun _ => ?_
    have wf_operand : last[0].WellFormed := wf _ (Vector.getElem_mem _)
    exact ⟨last[0], head?_popped below last, Operator.flags_of_converted wf_operand found⟩

end Conversion

/-! ## §4 Calls by name -/

namespace Library

open Call

/-- Whose flags the result has after a standard operator. -/
def operatorEffect (name : String) : FlagEffect :=
  if name ∈ ["ADD", "MUL"] then .ofFirst
  else if name ∈ ["MOVE", "SEL", "MAX", "MIN", "LIMIT", "MUX"] then .copied
  else .kept

open Operator in
theorem standardEntries_flags (mode : PowerMode) :
    ∀ entry ∈ standardEntries mode, Call.Flags (operatorEffect entry.1) entry.2.run := by
  -- The families of operators that differ in a function, a direction or a relation only.
  have real (g : Double → Double) : Call.Flags .kept (unary (ofReal g)).run :=
    fixed_keeps fun v _ stable => ofReal_settles stable g v[0]
  have shifting (d : Direction) : Call.Flags .kept (binary (shift d)).run :=
    fixed_keeps fun v _ stable => shift_settles stable d v[0] v[1]
  have rotating (d : Direction) : Call.Flags .kept (binary (rotate d)).run :=
    fixed_keeps fun v _ stable => rotate_settles stable d v[0] v[1]
  have logical (combine : Wide → Wide → Wide) : Call.Flags .kept (binary (bitwise combine)).run :=
    fixed_keeps fun v _ stable => bitwise_settles stable combine v[0] v[1]
  have relating (relation : Relation) : Call.Flags .kept (binary (relate relation)).run :=
    fixed_keeps fun v _ stable => relate_settles stable relation v[0] v[1]
  have moving : Call.Flags .copied (unary move).run :=
    fixed_copies fun v => leaves_set fun _ => Vector.getElem_mem _
  have selecting : Call.Flags .copied (ternary sel).run :=
    fixed_copies fun v => sel_leaves (Vector.getElem_mem _) (Vector.getElem_mem _)
  have limiting : Call.Flags .copied (ternary fun low value high => limit value low high).run :=
    fixed_copies fun v =>
      limit_leaves (Vector.getElem_mem _) (Vector.getElem_mem _) (Vector.getElem_mem _)
  simp only [standardEntries, List.forall_mem_cons]
  exact ⟨fold_flags _, fold_flags _,
    fixed_keeps fun v _ stable => sub_settles stable v[0] v[1],
    fixed_keeps fun v _ stable => div_settles stable v[0] v[1],
    fixed_keeps fun v _ stable => mod_settles stable v[0] v[1],
    fixed_keeps fun v _ stable => expt_settles stable mode v[0] v[1],
    fixed_keeps fun v _ stable => abs_settles stable v[0],
    real _, real _, real _, real _, real _, real _, real _, real _, real _, real _,
    fixed_keeps fun v _ stable => atan2_settles stable v[0] v[1],
    shifting _, shifting _, rotating _, rotating _, logical _, logical _, logical _,
    fixed_keeps fun v _ stable => complement_settles stable v[0],
    relating _, relating _, relating _, relating _, relating _, relating _,
    moving, selecting, extreme_flags _, extreme_flags _, limiting, mux_flags,
    fixed_keeps fun v _ stable => len_settles stable v[0],
    fixed_keeps fun v _ stable => left_settles stable v[0] v[1],
    fixed_keeps fun v _ stable => right_settles stable v[0] v[1],
    fixed_keeps fun v _ stable => mid_settles stable v[0] v[1] v[2],
    concat_flags,
    fixed_keeps fun v _ stable => insert_settles stable v[0] v[1] v[2],
    fixed_keeps fun v _ stable => delete_settles stable v[0] v[1] v[2],
    fixed_keeps fun v _ stable => replace_settles stable v[0] v[1] v[2] v[3],
    fixed_keeps fun v _ stable => find_settles stable v[0] v[1],
    fixed_keeps fun v _ stable => addTime_settles stable v[0] v[1],
    fixed_keeps fun v _ stable => subTime_settles stable v[0] v[1],
    fixed_keeps fun v _ stable => mulTime_settles stable v[0] v[1],
    fixed_keeps fun v _ stable => divTime_settles stable v[0] v[1],
    fun _ mem => absurd mem List.not_mem_nil⟩

/-- Every operator of a library is a standard one. -/
theorem Stock.exists_of_find? {lib : Library} (stock : Stock lib) {name : String} {operator : Operator}
    (found : lib.find? name = some operator) :
    ∃ mode known, (known, operator) ∈ standardEntries mode := by
  induction stock generalizing name operator with
  | standard mode profile =>
    obtain ⟨known, mem, _⟩ := exists_of_find?_standard found
    exact ⟨mode, known, mem⟩
  | @register lib _ operator' _ found' further ih =>
    by_cases same : key name = key further
    case pos =>
      -- The operator under the further name is the one that was found before.
      rw [find?_congr same, find?_register_self] at found
      cases found
      exact ih found'
    case neg =>
      rw [find?_register_of_ne same] at found
      exact ih found

/-- Where a call succeeds, the program behind the name did. -/
theorem run_of_call {lib : Library} {name : String} {result : Value} {operands : OperandStack}
    (success : (lib.call name result operands).status = .ok ()) :
    ∃ frame, (lib.program name).run ⟨result, operands⟩ = .ok () frame ∧
      (lib.call name result operands).result = frame.result := by
  cases run : (lib.program name).run ⟨result, operands⟩ with
  | ok _ frame =>
    refine ⟨frame, rfl, ?_⟩
    simp only [call, Program.final_of_ok run]
  | error fault frame =>
    simp only [call, Program.status_of_error run] at success
    cases success

/-- What a name of a library does to the flags. -/
inductive HasEffect (lib : Library) (name : String) : FlagEffect → Prop where
  | operator {mode : PowerMode} {known : String} {operator : Operator}
      (listed : (known, operator) ∈ standardEntries mode) (found : lib.find? name = some operator) :
      HasEffect lib name (operatorEffect known)
  | conversion {c : Conversion} (free : lib.find? name = none)
      (read : Conversion.ofName? (key name) = some c) : HasEffect lib name c.effect

/-- A standard operator has the effect of its name, in any letter case. -/
theorem hasEffect_standard {mode : PowerMode} (profile : LiteralProfile) {name known : String}
    {operator : Operator} (listed : (known, operator) ∈ standardEntries mode)
    (same : key name = key known) : (standard mode profile).HasEffect name (operatorEffect known) :=
  .operator listed ((find?_congr same).trans (find?_standard profile listed))

theorem HasEffect.flags {lib : Library} {name : String} {effect : FlagEffect}
    (has : lib.HasEffect name effect) : Call.Flags effect (lib.program name) := by
  cases has with
  | @operator mode known operator listed found =>
    rw [program_of_find? found]
    exact standardEntries_flags mode (known, operator) listed
  | @conversion c free read =>
    rw [program_of_conversion free read]
    exact c.apply_flags lib.profile

/-- A successful call is one of an operator or of a conversion, and the flags of the result are as its
effect says. -/
theorem Stock.call_flags {lib : Library} (stock : Stock lib) (name : String) {result : Value}
    {operands : OperandStack} (wf : ∀ v ∈ operands.popOrder, v.WellFormed)
    (success : (lib.call name result operands).status = .ok ()) :
    (∃ effect, lib.HasEffect name effect) ∧
      ∀ effect, lib.HasEffect name effect →
        effect.Holds operands.popOrder result (lib.call name result operands).result := by
  obtain ⟨frame, run, written⟩ := run_of_call success
  constructor
  · cases found : lib.find? name with
    | some operator =>
      obtain ⟨mode, known, listed⟩ := stock.exists_of_find? found
      exact ⟨_, .operator listed found⟩
    | none =>
      cases read : Conversion.ofName? (key name) with
      | some c => exact ⟨_, .conversion found read⟩
      | none =>
        simp [Library.program, conversion?, found, read] at run
        cases run
  · intro effect has
    rw [written]
    exact has.flags _ _ _ run wf

/-- A call succeeds where the program behind the name does. -/
theorem status_of_program {lib : Library} {name : String} {run : Call} {result : Value}
    {operands : OperandStack} (program : lib.program name = run)
    (success : run.status ⟨result, operands⟩ = .ok ()) :
    (lib.call name result operands).status = .ok () := by
  subst program
  exact success

/-- A difference leaves a retained result retained, a sum is retained if its first popped operand is, a
number keeps its flags when it is converted to another, and a text has none. -/
theorem call_flags_retain :
    let lib := standard .power {}
    let plain := Value.ofNumber .int (.ofInt 7)
    let retained := plain.setAttribute .retain true
    (lib.call "sub" retained (.ofList [plain, plain])).result.SameFlags retained ∧
      (lib.call "add" plain (.ofList [plain, retained])).result.SameFlags retained ∧
      (lib.call "to_dint" plain (.ofList [retained])).result.SameFlags retained ∧
      (lib.call "to_string" retained (.ofList [retained])).result.Unflagged := by
  intro lib plain retained
  have stock : Stock lib := .standard .power {}
  have wf : plain.WellFormed := (Value.wellFormed_zero .int).setNumber (.ofInt 7)
  have wf' : retained.WellFormed := Value.closed_wellFormed.setAttribute plain .retain true wf
  have numbers : ∀ v ∈ [plain, plain], v.WellFormed := by simp [wf]
  have mixed : ∀ v ∈ [retained, plain], v.WellFormed := by simp [wf, wf']
  have single : ∀ v ∈ [retained], v.WellFormed := by simp [wf']
  have free (name : String) (absent : key name ∉ (standardEntries .power).map (key ·.1)) :
      lib.find? name = none := (find?_registerAll_of_notMem absent { profile := {} }).trans rfl
  refine ⟨?_, ?_, ?_, ?_⟩
  · have listed : ("SUB", Operator.binary Operator.sub) ∈ standardEntries .power := by
      simp [standardEntries]
    have same : key "sub" = key "SUB" := by decide +kernel
    have success : (lib.call "sub" retained (.ofList [plain, plain])).status = .ok () :=
      status_of_program
        (program_of_find? ((find?_congr same).trans (find?_standard {} listed))) rfl
    exact (stock.call_flags "sub" numbers success).2 _ (hasEffect_standard {} listed same)
  · have listed : ("ADD", Operator.variadic Operator.add) ∈ standardEntries .power := by
      simp [standardEntries]
    have same : key "add" = key "ADD" := by decide +kernel
    have success : (lib.call "add" plain (.ofList [plain, retained])).status = .ok () :=
      status_of_program
        (program_of_find? ((find?_congr same).trans (find?_standard {} listed))) rfl
    obtain ⟨first, popped, same⟩ :=
      (stock.call_flags "add" mixed success).2 _ (hasEffect_standard {} listed same)
    cases popped
    exact same
  · have free := free "to_dint" (by decide +kernel)
    have read : Conversion.ofName? (key "to_dint") = some ⟨none, .convert, .dint⟩ := by decide +kernel
    have success : (lib.call "to_dint" plain (.ofList [retained])).status = .ok () :=
      status_of_program (program_of_conversion free read) rfl
    obtain ⟨operand, popped, same⟩ :=
      (stock.call_flags "to_dint" single success).2 _ (.conversion free read)
    cases popped
    exact same
  · have free := free "to_string" (by decide +kernel)
    have read : Conversion.ofName? (key "to_string") = some ⟨none, .convert, .string⟩ := by
      decide +kernel
    have success : (lib.call "to_string" retained (.ofList [retained])).status = .ok () :=
      status_of_program (program_of_conversion free read) rfl
    obtain ⟨operand, popped, plain⟩ :=
      (stock.call_flags "to_string" single success).2 _ (.conversion free read)
    cases popped
    exact plain

end Library

end Plc
