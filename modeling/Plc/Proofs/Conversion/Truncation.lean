import Plc.Proofs.Binary.Truncation
import Plc.Proofs.Conversion.Retyped
import Plc.Proofs.Value.Room

/-!
# Reals turned to integers

TO and TRUNC both drop the fraction of a real. TO turns the real to the integer type at once, and what is beyond
the type goes to its nearest limit. TRUNC makes a wide integer of it first, which then loses its high bits when
it is stored. The two leave the same integer wherever the type has room for it, and beyond that only where the
bits that are left happen to be those of the limit.

Main statements:

* `DataType.wrap_eq_held_iff`: when wrapping an integer comes to holding it at the limits.
* `Value.WellFormed.exists_double`: REAL and LREAL are truncated as they are, though both are read as LREAL.
* `Operator.narrowed_of_isReal`: TRUNC and TO, of any real and at any integer type.
-/

namespace Plc

open Value

/-! ## §1 Limits of integer types -/

namespace DataType

variable {t : DataType} {n : Int}

/-- The least integer of the type. -/
def least (t : DataType) : Int := Layout.wordLeast t.isSigned t.bitWidth

/-- The greatest integer of the type. -/
def greatest (t : DataType) : Int := Layout.wordGreatest t.isSigned t.bitWidth

/-- The integer of the type that is nearest to `n`. -/
def held (t : DataType) (n : Int) : Int := max t.least (min t.greatest n)

theorem limits_of_int (int : t.belongs .int = true) :
    -2 ^ 127 ≤ t.least ∧ t.least ≤ 0 ∧ 0 ≤ t.greatest ∧ t.greatest ≤ 2 ^ 127 - 1 := by
  have all_types : ∀ t ∈ all, t.belongs .int = true →
      -2 ^ 127 ≤ t.least ∧ t.least ≤ 0 ∧ 0 ≤ t.greatest ∧ t.greatest ≤ 2 ^ 127 - 1 := by decide +kernel
  exact all_types t t.mem_all int

theorem hasRoom_iff_limits (int : t.belongs .int = true) : t.HasRoom n ↔ t.least ≤ n ∧ n ≤ t.greatest := by
  unfold HasRoom
  rw [isWord_of_int int]
  rfl

theorem hasRoom_held (int : t.belongs .int = true) (n : Int) : t.HasRoom (t.held n) := by
  obtain ⟨_, nonpos, nonneg, _⟩ := limits_of_int int
  rw [hasRoom_iff_limits int]
  unfold held
  omega

theorem held_of_hasRoom (int : t.belongs .int = true) (room : t.HasRoom n) : t.held n = n := by
  have limits := (hasRoom_iff_limits int).mp room
  unfold held
  omega

/-- The low bits of an integer beyond the type are those of a limit only by chance. -/
theorem wrap_eq_held_iff (int : t.belongs .int = true) (n : Int) :
    t.wrap n = t.held n ↔ n ≡ t.held n [ZMOD 2 ^ t.bitWidth] := by
  constructor
  · intro same
    rw [← same]
    exact (t.wrap_modEq n).symm
  · intro congruent
    rw [wrap_eq_of_modEq congruent, (isWord_of_int int).wrap_of_hasRoom (hasRoom_held int n)]

end DataType

/-! ## §2 Reals -/

/-- The content is a real, and the integer is the one next to it, toward zero, held between two limits. -/
def Payload.Truncated (low high n : Int) : Payload → Prop
  | ⟨.real, x⟩ => Binary.Truncated (f := .single) low high x n
  | ⟨.lreal, x⟩ => Binary.Truncated (f := .double) low high x n
  | _ => False

theorem Payload.truncated_real {low high n : Int} {x : Single} :
    Truncated low high n ⟨.real, x⟩ ↔ n = x.truncate low high := Binary.truncated_iff

theorem Payload.truncated_lreal {low high n : Int} {x : Double} :
    Truncated low high n ⟨.lreal, x⟩ ↔ n = x.truncate low high := Binary.truncated_iff

namespace Value

variable {v : Value} {t : DataType}

/-- REAL is read as the LREAL of the same number, and truncated as that. -/
theorem WellFormed.exists_double (wf : v.WellFormed) (real : v.type.isReal = true) :
    ∃ x : Double, v.number? = some (.real x) ∧
      ∀ low high n, v.payload.Truncated low high n ↔ n = x.truncate low high := by
  unfold number?
  cases type : v.type <;> rw [type] at real <;> cases real
  case real =>
    have shape : v.payload.shape = .real := by rw [wf.shape, type]; rfl
    generalize v.payload = p at shape
    obtain ⟨_, x⟩ := p
    obtain rfl := shape
    refine ⟨Binary.convert (f := .single) x, rfl, ?_⟩
    intro low high n
    have kept := Binary.truncate_convert Format.double_covers_single low high x
    exact Payload.truncated_real.trans (Eq.congr_right kept.symm)
  case lreal =>
    have shape : v.payload.shape = .lreal := by rw [wf.shape, type]; rfl
    generalize v.payload = p at shape
    obtain ⟨_, x⟩ := p
    obtain rfl := shape
    exact ⟨x, rfl, fun low high n => Payload.truncated_lreal⟩

end Value

/-! ## §3 The two conversions -/

theorem DataType.of_isReal {t : DataType} (real : t.isReal = true) :
    t.belongsAny [.real] = true ∧ t.belongsAny [.elementary, .char] = true ∧
      t.belongsAny [.num, .bit, .magnitude, .char] = true ∧ t.belongs .int = false := by
  cases t <;> first | exact ⟨rfl, rfl, rfl, rfl⟩ | cases real

namespace Value

variable {v : Value} {t : DataType} {x : Double}

/-- A real that is turned to an integer type is held at the limits of the type. -/
theorem toInt_retype_real (wf : v.WellFormed) (real : v.type.isReal = true) (int : t.belongs .int = true)
    (found : v.number? = some (.real x)) : (v.retype t).toInt = x.truncate t.least t.greatest := by
  obtain ⟨_, _, numeric, not_int⟩ := DataType.of_isReal real
  obtain ⟨least, nonpos, nonneg, greatest⟩ := DataType.limits_of_int int
  have word : t.IsWord := DataType.isWord_of_int int
  have other : t ≠ v.type := by
    rintro rfl
    rw [int] at not_int
    cases not_int
  have carries : v.carriesNumber = true := Bool.or_eq_true_iff.mpr (Or.inr (wf.belongsAny numeric))
  have room : t.HasRoom (x.truncate t.least t.greatest) := by
    rw [Binary.truncate_between least nonpos nonneg greatest]
    exact DataType.hasRoom_held int _
  have read : (ofNumber t (.real x)).number? =
      some (.int (Layout.widen t.isSigned (BitVec.ofInt t.bitWidth (x.truncate t.least t.greatest)))) :=
    number?_setNumber_word (v := zero t) word (.real x)
  rw [toInt_of_payload (payload_retype other carries found)]
  unfold toInt
  rw [number_of_number? read]
  exact (t.toInt_widen_ofInt _).trans (word.wrap_of_hasRoom room)

end Value

namespace Operator

variable {profile : LiteralProfile} {t : DataType} {v result : Value} {x : Double}

theorem truncate_run (wf : v.WellFormed) (real : v.type.isReal = true) (int : t.belongs .int = true)
    (found : v.number? = some (.real x)) (wf' : result.WellFormed) :
    ∃ u, (truncate t v).run result = .ok () u ∧ u.Holds t (x.truncate (-2 ^ 127) (2 ^ 127 - 1)) := by
  have checked : v.require [.real] = .ok () := wf.require_iff.mpr (DataType.of_isReal real).1
  have passed : Fault.typeNotDefined.when (!t.belongs .int) = .ok () := by
    rw [int]
    rfl
  have number : Number.int v.number.toWide = .ofInt (x.truncate (-2 ^ 127) (2 ^ 127 - 1)) := by
    rw [number_of_number? found]
    rfl
  unfold truncate
  rw [Program.run_check_of_ok checked, Program.run_check_of_ok passed, number]
  exact ⟨_, rfl, wf'.holds_setNumber (DataType.isWord_of_int int) _⟩

theorem convert_run_retype (wf : v.WellFormed) (real : v.type.isReal = true) (int : t.belongs .int = true)
    (found : v.number? = some (.real x)) (profile : LiteralProfile) (result : Value) :
    (convert profile t v).run result = .ok () (v.retype t) := by
  obtain ⟨_, elementary, _, _⟩ := DataType.of_isReal real
  obtain ⟨_, isTarget, notString, _⟩ := DataType.Integral.isWord (Or.inl int)
  apply run_convert wf elementary isTarget
  unfold converted
  rw [(wf.plain_of_number? found).2]
  exact if_neg (Bool.eq_false_iff.mp notString)

/-- What TRUNC has made of a real, and what TO has. The real, truncated between the limits of wide words,
is `n`. -/
structure Narrowed (v : Value) (t : DataType) (n : Int) (truncated converted : Value) : Prop where
  wrapped : truncated.Holds t n
  ofType : converted.OfType t
  held : v.payload.Truncated t.least t.greatest converted.toInt
  alike_iff : truncated.Alike converted ↔ n ≡ t.held n [ZMOD 2 ^ t.bitWidth]
  alike : t.HasRoom n → truncated.Alike converted

/-- Two values of an integer type, the one wrapped and the other one held at the limits. -/
theorem alike_iff_modEq {u w : Value} {n : Int} (int : t.belongs .int = true) (wrapped : u.Holds t n)
    (ofType : w.OfType t) (held : w.toInt = t.held n) : u.Alike w ↔ n ≡ t.held n [ZMOD 2 ^ t.bitWidth] := by
  have word : t.IsWord := DataType.isWord_of_int int
  rw [← DataType.wrap_eq_held_iff int, ← held, ← wrapped.toInt]
  constructor
  · intro alike
    exact toInt_of_payload alike.payload
  · intro same
    refine wrapped.alike word ⟨ofType.wf, ofType.type, ?_⟩
    rw [← wrapped.toInt, same]

/-- TRUNC and TO of any real, at any integer type. -/
theorem narrowed_of_isReal (profile : LiteralProfile) (wf : v.WellFormed) (real : v.type.isReal = true)
    (int : t.belongs .int = true) : ∃ n, v.payload.Truncated (-2 ^ 127) (2 ^ 127 - 1) n ∧
      ∀ result result' : Value, result.WellFormed → ∃ u w, (truncate t v).run result = .ok () u ∧
        (convert profile t v).run result' = .ok () w ∧ Narrowed v t n u w := by
  obtain ⟨x, found, truncated_iff⟩ := wf.exists_double real
  obtain ⟨least, nonpos, nonneg, greatest⟩ := DataType.limits_of_int int
  refine ⟨_, (truncated_iff _ _ _).mpr rfl, ?_⟩
  intro result result' wf'
  obtain ⟨u, run, wrapped⟩ := truncate_run wf real int found wf'
  refine ⟨u, v.retype t, run, convert_run_retype wf real int found profile result', ?_⟩
  have ofType : (v.retype t).OfType t := ⟨wf.retype t, Value.type_retype v t⟩
  have read : (v.retype t).toInt = x.truncate t.least t.greatest := toInt_retype_real wf real int found
  have held : (v.retype t).toInt = t.held (x.truncate (-2 ^ 127) (2 ^ 127 - 1)) :=
    read.trans (Binary.truncate_between least nonpos nonneg greatest x)
  have alike_iff := alike_iff_modEq int wrapped ofType held
  constructor
  case wrapped => exact wrapped
  case ofType => exact ofType
  case held => exact (truncated_iff _ _ _).mpr read
  case alike_iff => exact alike_iff
  case alike =>
    intro room
    rw [alike_iff, DataType.held_of_hasRoom int room]

/-- A negative half is dropped toward zero. -/
theorem narrowed_of_isReal_fraction :
    let v := Value.ofNumber .real (.real (.ofInt (-5) / .ofInt 2))
    ∃ u w, (truncate .int v).run .null = .ok () u ∧ (convert {} .int v).run .null = .ok () w ∧ u.Alike w ∧
      u.toInt = -2 := by
  intro v
  have payload : v.payload = ⟨.real, Binary.convert (.ofInt (-5) / .ofInt 2 : Double)⟩ := rfl
  have whole : (Binary.convert (.ofInt (-5) / .ofInt 2 : Double) : Single).truncate (-2 ^ 127) (2 ^ 127 - 1) =
      -2 := by decide +kernel
  have made := narrowed_of_isReal (v := v) (t := .int) {} ((wellFormed_zero .real).setNumber _) rfl rfl
  simp only [payload, Payload.truncated_real, whole, exists_eq_left] at made
  obtain ⟨u, w, first, second, narrowed⟩ := made .null .null (wellFormed_zero .null)
  exact ⟨u, w, first, second, narrowed.alike (by decide), narrowed.wrapped.toInt.trans (by decide)⟩

/-- Beyond the type TO stops at the limit, and TRUNC keeps the low bits. -/
theorem truncate_differs_from_convert :
    ¬∀ (v : Value) (t : DataType), v.WellFormed → v.type.isReal = true → t.belongs .int = true →
      ∃ u w, (truncate t v).run .null = .ok () u ∧ (convert {} t v).run .null = .ok () w ∧
        u.type = w.type ∧ u.toInt = w.toInt ∧ v.payload.Truncated t.least t.greatest w.toInt := by
  intro agree
  obtain ⟨u, w, first, second, _, same, _⟩ := agree (.ofNumber .lreal (.real (.ofInt 3000000000))) .int
    ((wellFormed_zero .lreal).setNumber _) rfl rfl
  rw [← Program.final_of_ok first, ← Program.final_of_ok second] at same
  exact absurd same (by decide +kernel)

end Operator

end Plc
