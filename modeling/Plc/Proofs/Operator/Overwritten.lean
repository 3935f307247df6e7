import Plc.Proofs.Operator.Drained
import Plc.Proofs.Value.Word

/-!
# Old contents are overwritten

An operator looks at the type and the flags of the result container, but a number that is in it from
before must not come through. Two containers of one *shell*, well-formed and the same in all but the
content, are handed to an operator with the same operands: the runs end in equal containers, or stop at
one fault.

A number hides the old content only where the layout can hold it. So the guards matter here: what they
let pass is of a type with a numeric view, and so is the container once it is made ready for it.

Main statements:

* `SameShell.eq_of_setNumber`, `SameShell.setText_eq`, `SameShell.setDuration_eq`: the writes that hide
  the old content.
* one lemma `…_overwrites` for each operator on the result.
* `Call.overwrites_drain` and the calls made of it.
-/

namespace Plc

open Program

/-! ## §1 Types with a numeric view -/

namespace DataType

/-- The categories without members that are text. -/
def Numeric (allowed : List Category) : Prop :=
  ∀ c ∈ allowed, c ∉ [Category.string, .chars, .elementary]

instance (allowed : List Category) : Decidable (Numeric allowed) :=
  inferInstanceAs (Decidable (∀ c ∈ allowed, _))

theorem isNumeric_of_belongsAny {t : DataType} {allowed : List Category} (numeric : Numeric allowed)
    (member : t.belongsAny allowed = true) : t.layout.isNumeric = true := by
  have each : ∀ c ∈ Category.all, c ∉ [Category.string, .chars, .elementary] → ∀ t ∈ all,
      t.belongs c = true → t.layout.isNumeric = true := by decide +kernel
  obtain ⟨c, mem, belongs⟩ := List.any_eq_true.mp member
  have listed : c ∈ Category.all := by cases c <;> decide
  exact each c listed (numeric c mem) t t.mem_all belongs

theorem isNumeric_wider {s t : DataType} (first : s.layout.isNumeric = true)
    (second : t.layout.isNumeric = true) : (s.wider t).layout.isNumeric = true := by
  rcases s.wider_eq t with same | same
  · rw [same]
    exact first
  · rw [same]
    exact second

theorem isNumeric_of_codedDigits? {t : DataType} {digits : Nat} (coded : t.codedDigits? = some digits) :
    t.layout.isNumeric = true := by
  cases t <;> first | rfl | cases coded

end DataType

/-! ## §2 Values of one shell -/

namespace Value

/-- An operand that passes a guard for numbers has a numeric view. -/
theorem WellFormed.isNumeric_of_require {v : Value} (wf : v.WellFormed) {allowed : List Category}
    (passed : v.require allowed = .ok ()) (numeric : DataType.Numeric allowed) :
    v.type.layout.isNumeric = true :=
  DataType.isNumeric_of_belongsAny numeric (wf.require_iff.mp passed)

/-- The same value but for the content. -/
structure SameShell (u v : Value) : Prop where
  wf : u.WellFormed
  wf' : v.WellFormed
  type : u.type = v.type
  attributes : u.attributes = v.attributes
  state : u.state = v.state

namespace SameShell

variable {u v : Value} (shell : u.SameShell v)
include shell

theorem categories : u.categories = v.categories := by
  rw [shell.wf.categories, shell.wf'.categories, shell.type]

theorem payload_shape : u.payload.shape = v.payload.shape := by
  rw [shell.wf.shape, shell.wf'.shape, shell.type]

/-- Values of one shell with one content are one value. -/
theorem eq_of_payload (payload : u.payload = v.payload) : u = v := by
  obtain ⟨type, categories, payload', attributes, state⟩ := u
  obtain rfl : type = v.type := shell.type
  obtain rfl : categories = v.categories := shell.categories
  obtain rfl : payload' = v.payload := payload
  obtain rfl : attributes = v.attributes := shell.attributes
  obtain rfl : state = v.state := shell.state
  rfl

theorem retype (t : DataType) : (u.retype t).SameShell (v.retype t) where
  wf := shell.wf.retype t
  wf' := shell.wf'.retype t
  type := by rw [type_retype, type_retype]
  attributes := by rw [attributes_retype, attributes_retype, shell.attributes]
  state := by rw [state_retype, state_retype, shell.state]

/-- Whether there is a numeric view does not depend on the content. -/
theorem isSome_number? : u.number?.isSome = v.number?.isSome := by
  show (u.payload.shape.layout.number? _).isSome = (v.payload.shape.layout.number? _).isSome
  rw [Layout.isSome_number?, Layout.isSome_number?, shell.payload_shape]

theorem widenTo (t : DataType) : (u.widenTo t).SameShell (v.widenTo t) := by
  have views : u.number?.isNone = v.number?.isNone := by
    rw [← Option.not_isSome, ← Option.not_isSome, shell.isSome_number?]
  unfold Value.widenTo
  rw [views]
  split
  case isTrue => exact shell.retype t
  case isFalse =>
    rw [promote_eq, promote_eq, shell.type]
    exact shell.retype _

/-- A stored number hides the old content, if there is room for numbers. -/
theorem eq_of_setNumber (numeric : u.type.layout.isNumeric = true) (n : Number) :
    u.setNumber n = v.setNumber n := by
  have stored : u.payload.store n = v.payload.store n := by
    have shape := shell.payload_shape
    have room : (u.payload.shape.layout.store? n).isSome = true := by
      rw [Layout.isSome_store?, shell.wf.layout]
      exact numeric
    generalize u.payload = p at shape room
    generalize v.payload = q at shape
    obtain ⟨held, data⟩ := p
    obtain ⟨held', data'⟩ := q
    obtain rfl : held = held' := shape
    obtain ⟨content, found⟩ := Option.isSome_iff_exists.mp room
    unfold Payload.store
    simp only [found]
  have after : (u.setNumber n).SameShell (v.setNumber n) :=
    ⟨shell.wf.setNumber n, shell.wf'.setNumber n, shell.type, shell.attributes, shell.state⟩
  exact after.eq_of_payload stored

theorem setText_eq (content : String) (wide hashed : Bool) :
    u.setText content wide hashed = v.setText content wide hashed := by
  have turned := shell.retype (if wide then .wstring else .string)
  have after : (u.setText content wide hashed).SameShell (v.setText content wide hashed) :=
    ⟨shell.wf.setText .., shell.wf'.setText .., turned.type, turned.attributes, turned.state⟩
  exact after.eq_of_payload rfl

theorem setDuration_eq (d : Duration) : u.setDuration d = v.setDuration d := by
  have turned := shell.retype .time
  have after : (u.setDuration d).SameShell (v.setDuration d) :=
    ⟨shell.wf.setDuration d, shell.wf'.setDuration d, turned.type, turned.attributes, turned.state⟩
  exact after.eq_of_payload rfl

end SameShell

/-- A container made ready for a number can hold it: it is turned to the type of the number, or it held
numbers before. -/
theorem WellFormed.isNumeric_widenTo {v : Value} (wf : v.WellFormed) {t : DataType}
    (numeric : t.layout.isNumeric = true) : (v.widenTo t).type.layout.isNumeric = true := by
  unfold Value.widenTo
  split
  case isTrue =>
    rw [type_retype]
    exact numeric
  case isFalse held =>
    have viewed : v.number?.isSome = true :=
      Option.isSome_iff_ne_none.mpr (mt Option.isNone_iff_eq_none.mpr held)
    have before : v.type.layout.isNumeric = true := by
      rw [← wf.layout, ← Layout.isSome_number? _ v.payload.data]
      exact viewed
    rw [promote_eq, type_retype]
    exact DataType.isNumeric_wider before numeric

end Value

/-! ## §3 Actions that hide the old content -/

/-- From containers of one shell the action ends in equal ones, or stops at one fault. -/
def Action.Overwrites (action : Action) : Prop := Couples Value.SameShell Eq action

namespace Operator

variable {t : DataType}

/-- Storing a number in a result made ready for its type. -/
theorem widened_overwrites (numeric : t.layout.isNumeric = true) (n : Number) :
    Action.Overwrites (do modify (·.widenTo t); modify (·.setNumber n)) := by
  intro u v shell
  have ready := shell.widenTo t
  exact Or.inl ⟨(), _, _, rfl, rfl, ready.eq_of_setNumber (shell.wf.isNumeric_widenTo numeric) n⟩

/-- Storing a number in a result turned to its type. -/
theorem retyped_overwrites (numeric : t.layout.isNumeric = true) (n : Number) :
    Action.Overwrites (do modify (·.retype t); modify (·.setNumber n)) := by
  intro u v shell
  have ready := shell.retype t
  refine Or.inl ⟨(), _, _, rfl, rfl, ready.eq_of_setNumber ?_ n⟩
  rw [Value.type_retype]
  exact numeric

theorem chars_overwrites (model : Value) (cs : List Char) :
    Action.Overwrites (modify (·.setCharsLike model cs)) :=
  couples_modify fun _ _ shell => shell.setText_eq _ _ _

theorem duration_overwrites (d : Duration) : Action.Overwrites (modify (·.setDuration d)) :=
  couples_modify fun _ _ shell => shell.setDuration_eq d

theorem copy_overwrites (v : Value) : Action.Overwrites (set v) := couples_set v

/-! ## §4 Operators on numbers and bit patterns -/

variable {a b : Value}

/-- Both operands guarded, and the result made ready for the higher-ranked type. -/
theorem guarded_overwrites {allowed : List Category} (numeric : DataType.Numeric allowed)
    (wf : a.WellFormed) (wf' : b.WellFormed) (n : Number) :
    Action.Overwrites (do
      a.require allowed
      b.require allowed
      modify (·.widenTo (a.type.wider b.type))
      modify (·.setNumber n)) :=
  couples_check fun _ first => couples_check fun _ second =>
    widened_overwrites (DataType.isNumeric_wider (wf.isNumeric_of_require first numeric)
      (wf'.isNumeric_of_require second numeric)) n

theorem sub_overwrites (wf : a.WellFormed) (wf' : b.WellFormed) : (sub a b).Overwrites :=
  guarded_overwrites (by decide) wf wf' _

theorem mod_overwrites (wf : a.WellFormed) (wf' : b.WellFormed) : (mod a b).Overwrites :=
  guarded_overwrites (by decide) wf wf' _

theorem bitwise_overwrites (combine : Wide → Wide → Wide) (wf : a.WellFormed) (wf' : b.WellFormed) :
    (bitwise combine a b).Overwrites :=
  guarded_overwrites (by decide) wf wf' _

theorem atan2_overwrites (wf : a.WellFormed) (wf' : b.WellFormed) : (atan2 a b).Overwrites :=
  guarded_overwrites (by decide) wf wf' _

/-- Which quotient is taken depends on the type that the result has by then, and on nothing else in it. -/
theorem div_overwrites (wf : a.WellFormed) (wf' : b.WellFormed) : (div a b).Overwrites := by
  refine couples_check fun _ first => couples_check fun _ second => couples_check fun _ _ => ?_
  have numeric := DataType.isNumeric_wider (wf.isNumeric_of_require first (by decide))
    (wf'.isNumeric_of_require second (by decide))
  intro u v shell
  -- Made ready, the two results are of one type, so both runs take the same quotient.
  have ready := shell.widenTo (a.type.wider b.type)
  have real : (u.widenTo (a.type.wider b.type)).belongsAny [.real] =
      (v.widenTo (a.type.wider b.type)).belongsAny [.real] := by
    unfold Value.belongsAny
    rw [ready.categories]
  refine Or.inl ⟨(), _, _, rfl, rfl, ?_⟩
  rw [real]
  exact ready.eq_of_setNumber (shell.wf.isNumeric_widenTo numeric) _

theorem expt_overwrites (mode : PowerMode) (a b : Value) : (expt mode a b).Overwrites :=
  couples_check fun _ _ => couples_check fun _ _ => widened_overwrites rfl _

theorem abs_overwrites (wf : a.WellFormed) : (abs a).Overwrites :=
  couples_check fun _ passed => widened_overwrites (wf.isNumeric_of_require passed (by decide)) _

theorem ofReal_overwrites (g : Double → Double) (wf : a.WellFormed) : (ofReal g a).Overwrites :=
  couples_check fun _ passed => widened_overwrites (wf.isNumeric_of_require passed (by decide)) _

theorem complement_overwrites (wf : a.WellFormed) : (complement a).Overwrites :=
  couples_check fun _ passed => widened_overwrites (wf.isNumeric_of_require passed (by decide)) _

theorem shift_overwrites (d : Direction) (wf : a.WellFormed) (amount : Value) :
    (shift d a amount).Overwrites :=
  couples_check fun _ passed => couples_check fun _ _ =>
    widened_overwrites (wf.isNumeric_of_require passed (by decide)) _

theorem rotate_overwrites (d : Direction) (wf : a.WellFormed) (amount : Value) :
    (rotate d a amount).Overwrites :=
  couples_check fun _ passed => couples_check fun _ _ =>
    widened_overwrites (wf.isNumeric_of_require passed (by decide)) _

theorem relate_overwrites (relation : Relation) (a b : Value) : (relate relation a b).Overwrites :=
  couples_check fun _ _ => couples_check fun _ _ => retyped_overwrites rfl _

/-! ## §5 Operators on strings and durations -/

theorem len_overwrites (s : Value) : (len s).Overwrites :=
  couples_check fun _ _ => retyped_overwrites rfl _

theorem find_overwrites (s text : Value) : (find s text).Overwrites :=
  couples_check fun _ _ => couples_check fun _ _ => retyped_overwrites rfl _

theorem left_overwrites (s n : Value) : (left s n).Overwrites :=
  couples_check fun _ _ => couples_check fun _ _ => chars_overwrites s _

theorem right_overwrites (s n : Value) : (right s n).Overwrites :=
  couples_check fun _ _ => couples_check fun _ _ => chars_overwrites s _

theorem mid_overwrites (s count position : Value) : (mid s count position).Overwrites :=
  couples_check fun _ _ => couples_check fun _ _ => couples_check fun _ _ =>
    couples_check fun _ _ => chars_overwrites s _

theorem insert_overwrites (s text position : Value) : (insert s text position).Overwrites :=
  couples_check fun _ _ => couples_check fun _ _ => couples_check fun _ _ =>
    couples_check fun _ _ => chars_overwrites s _

theorem delete_overwrites (s count position : Value) : (delete s count position).Overwrites :=
  couples_check fun _ _ => couples_check fun _ _ => couples_check fun _ _ =>
    couples_check fun _ _ => chars_overwrites s _

theorem replace_overwrites (s text count position : Value) :
    (replace s text count position).Overwrites :=
  couples_check fun _ _ => couples_check fun _ _ => couples_check fun _ _ =>
    couples_check fun _ _ => couples_check fun _ _ => chars_overwrites s _

theorem addTime_overwrites (a b : Value) : (addTime a b).Overwrites :=
  couples_check fun _ _ => couples_check fun _ _ => duration_overwrites _

theorem subTime_overwrites (a b : Value) : (subTime a b).Overwrites :=
  couples_check fun _ _ => couples_check fun _ _ => duration_overwrites _

theorem mulTime_overwrites (t factor : Value) : (mulTime t factor).Overwrites :=
  couples_check fun _ _ => couples_check fun _ _ => duration_overwrites _

theorem divTime_overwrites (t divisor : Value) : (divTime t divisor).Overwrites :=
  couples_check fun _ _ => couples_check fun _ _ => couples_check fun _ _ => duration_overwrites _

/-! ## §6 Operators that copy, and conversions -/

theorem move_overwrites (source : Value) : (move source).Overwrites := copy_overwrites source

theorem sel_overwrites (selector ifFalse ifTrue : Value) : (sel selector ifFalse ifTrue).Overwrites :=
  couples_check fun _ _ => copy_overwrites _

theorem limit_overwrites (value low high : Value) : (limit value low high).Overwrites :=
  couples_check fun _ _ => couples_check fun _ _ => couples_check fun _ _ => copy_overwrites _

theorem convert_overwrites (profile : LiteralProfile) (target : DataType) (a : Value) :
    (convert profile target a).Overwrites :=
  couples_check fun _ _ => couples_check fun _ _ => couples_check fun v _ => copy_overwrites v

/-- A target that is checked to be of the integers has room for one. -/
theorem isNumeric_of_int {target : DataType}
    (passed : Fault.typeNotDefined.when (!target.belongs .int) = .ok ()) :
    target.layout.isNumeric = true := by
  cases int : target.belongs .int with
  | true =>
    have member : target.belongsAny [.int] = true :=
      List.any_eq_true.mpr ⟨.int, List.mem_cons_self, int⟩
    exact DataType.isNumeric_of_belongsAny (by decide) member
  | false =>
    rw [int] at passed
    cases passed

theorem truncate_overwrites (target : DataType) (a : Value) : (truncate target a).Overwrites :=
  couples_check fun _ _ => couples_check fun _ passed => retyped_overwrites (isNumeric_of_int passed) _

theorem toBcd_overwrites (target : DataType) (a : Value) : (toBcd target a).Overwrites := by
  refine couples_check fun _ _ => couples_check fun digits passed => ?_
  have coded : target.codedDigits? = some digits := by
    cases found : target.codedDigits? <;> rw [found] at passed <;> cases passed
    rfl
  refine couples_check fun _ _ => couples_check fun _ _ => ?_
  exact retyped_overwrites (DataType.isNumeric_of_codedDigits? coded) _

theorem ofBcd_overwrites (target : DataType) (a : Value) : (ofBcd target a).Overwrites :=
  couples_check fun _ _ => couples_check fun _ passed => couples_check fun _ _ =>
    retyped_overwrites (isNumeric_of_int passed) _

end Operator

theorem Conversion.apply_overwrites (c : Conversion) (profile : LiteralProfile) (a : Value) :
    (c.apply profile a).Overwrites := by
  refine couples_check fun _ _ => ?_
  cases c.kind with
  | ofBcd => exact Operator.ofBcd_overwrites c.target a
  | toBcd => exact Operator.toBcd_overwrites c.target a
  | truncate => exact Operator.truncate_overwrites c.target a
  | convert => exact Operator.convert_overwrites profile c.target a

/-! ## §7 Calls -/

/-- Two frames of one call: the same operands, and results of one shell. -/
structure Frame.SameShell (first second : Frame) : Prop where
  operands : first.operands = second.operands
  wf : ∀ v ∈ first.operands.popOrder, v.WellFormed
  result : first.result.SameShell second.result

/-- The same once the operands are taken: none are left, and results of one shell. -/
structure Frame.Emptied (first second : Frame) : Prop where
  operands : first.operands = .empty
  operands' : second.operands = .empty
  result : first.result.SameShell second.result

/-- Frames without operands are equal once they are given equal results. -/
theorem Frame.Emptied.eq_of_result {first second : Frame} (emptied : first.Emptied second)
    {result result' : Value} (same : result = result') :
    { first with result := result } = { second with result := result' } := by
  rw [same, emptied.operands, emptied.operands']

namespace Call

/-- From frames that differ in the content of the result only, the call ends in equal frames, or stops
at one fault. -/
def Overwrites (call : Call) : Prop := Couples Frame.SameShell Eq call

/-- An action that hides the old content, on frames without operands. -/
theorem onResult_couples {action : Action} (overwrites : action.Overwrites) :
    Couples Frame.Emptied Eq (onResult action) := by
  refine couples_within overwrites Frame.result (fun frame result => { frame with result := result })
    (fun frame => ?_) (fun _ _ emptied => emptied.result) fun _ _ _ _ emptied => emptied.eq_of_result
  unfold EStateM.run onResult
  cases action frame.result <;> rfl

theorem withOperands_couples {operands : OperandStack} {call : Call} (overwrites : call.Overwrites)
    (wf : ∀ v ∈ operands.popOrder, v.WellFormed) :
    Couples Frame.Emptied Eq (withOperands operands call) := by
  refine couples_within overwrites (fun frame => { frame with operands := operands })
    (fun frame inner => { frame with result := inner.result }) (fun frame => ?_)
    (fun _ _ emptied => ⟨rfl, wf, emptied.result⟩)
    fun _ _ _ _ emptied same => emptied.eq_of_result (congrArg Frame.result same)
  unfold EStateM.run withOperands
  cases call { frame with operands := operands } <;> rfl

/-- The stack drained first: the rest sees no operands but the ones drained. -/
theorem overwrites_drain {f : List Value → Call}
    (rest : ∀ operands, (∀ v ∈ operands, v.WellFormed) → Couples Frame.Emptied Eq (f operands)) :
    Overwrites (drain >>= f) := by
  rintro ⟨result, operands⟩ ⟨result', operands'⟩ shell
  obtain rfl : operands = operands' := shell.operands
  exact rest operands.popOrder shell.wf _ _ ⟨rfl, rfl, shell.result⟩

/-- The stack dropped first. -/
theorem overwrites_flush {rest : Call} (couples : Couples Frame.Emptied Eq rest) :
    Overwrites (flush >>= fun _ => rest) :=
  fun _ _ shell => couples _ _ ⟨rfl, rfl, shell.result⟩

theorem overwrites_drainChecked {allowed : List Category} {f : List Value → Call}
    (rest : ∀ first others, Couples Frame.Emptied Eq (f (first :: others))) :
    Overwrites (drainChecked allowed >>= f) := by
  unfold drainChecked
  simp only [bind_assoc, pure_bind]
  refine overwrites_drain fun operands _ => ?_
  cases operands with
  | nil => exact fun _ _ _ => Or.inr ⟨.nullParameter, _, _, rfl, rfl⟩
  | cons first others => exact couples_check fun _ _ => couples_check fun _ _ => rest first others

theorem overwrites_takeLast {count : Nat} {f : Vector Value count → Call}
    (rest : ∀ operands : Vector Value count, (∀ v ∈ operands, v.WellFormed) →
      Couples Frame.Emptied Eq (f operands)) :
    Overwrites (takeLast count >>= f) := by
  unfold takeLast
  simp only [bind_assoc]
  refine overwrites_drain fun operands wf => ?_
  split
  case isTrue short => exact couples_throw _
  case isFalse enough =>
    rw [pure_bind]
    refine rest _ fun v mem => ?_
    obtain ⟨i, rfl⟩ := Vector.mem_ofFn.mp mem
    exact wf _ (List.getElem_mem _)

/-! ## §8 Operators by arity -/

/-- The first operand takes the place of the result, and from then on both runs are one. -/
theorem fold_overwrites (combine : Number → Number → Number) : Overwrites (Operator.fold combine) :=
  overwrites_drainChecked fun first _ =>
    onResult_couples (couples_bind (couples_set first) fun _ => couples_eq _)

theorem concat_overwrites : Overwrites Operator.concat :=
  overwrites_drainChecked fun _ _ =>
    onResult_couples (couples_modify fun _ _ shell => shell.setText_eq _ _ _)

theorem extreme_overwrites (wanted : Ordering) : Overwrites (Operator.extreme wanted) :=
  overwrites_drainChecked fun _ _ => onResult_couples (couples_set _)

theorem choose_overwrites (selector : Value) : Overwrites (Operator.choose selector) := by
  unfold Operator.choose
  split
  case h_1 fault _ => exact overwrites_flush (couples_throw fault)
  case h_2 =>
    refine overwrites_drain fun operands _ => ?_
    split
    case h_1 input _ => exact onResult_couples (couples_set input)
    case h_2 => exact couples_throw _

theorem mux_overwrites : Overwrites Operator.mux := by
  refine overwrites_drain fun operands wf => ?_
  split
  case h_1 => exact couples_throw _
  case h_2 selector inputs reversed =>
    exact withOperands_couples (choose_overwrites selector) fun v mem =>
      wf v (mem_of_inputs reversed mem)

theorem fixed_overwrites {arity : Nat} {apply : Vector Value arity → Action}
    (overwrites : ∀ operands : Vector Value arity, (∀ v ∈ operands, v.WellFormed) →
      (apply operands).Overwrites) :
    Overwrites (Operator.fixed arity apply).run :=
  overwrites_takeLast fun operands wf => onResult_couples (overwrites operands wf)

theorem unary_overwrites {apply : Value → Action}
    (overwrites : ∀ a, a.WellFormed → (apply a).Overwrites) :
    Overwrites (Operator.unary apply).run :=
  fixed_overwrites fun _ wf => overwrites _ (wf _ (Vector.getElem_mem _))

theorem binary_overwrites {apply : Value → Value → Action}
    (overwrites : ∀ a b, a.WellFormed → b.WellFormed → (apply a b).Overwrites) :
    Overwrites (Operator.binary apply).run :=
  fixed_overwrites fun _ wf =>
    overwrites _ _ (wf _ (Vector.getElem_mem _)) (wf _ (Vector.getElem_mem _))

theorem ternary_overwrites {apply : Value → Value → Value → Action}
    (overwrites : ∀ a b c, (apply a b c).Overwrites) : Overwrites (Operator.ternary apply).run :=
  fixed_overwrites fun _ _ => overwrites _ _ _

theorem quaternary_overwrites {apply : Value → Value → Value → Value → Action}
    (overwrites : ∀ a b c d, (apply a b c d).Overwrites) :
    Overwrites (Operator.quaternary apply).run :=
  fixed_overwrites fun _ _ => overwrites _ _ _ _

end Call

end Plc
