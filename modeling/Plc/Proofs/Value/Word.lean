import Mathlib.Data.Int.ModEq
import Plc.Proofs.Value.Closed

/-!
# Values that hold a word

Integers, bit strings and characters are words, signed or not, of some width. Seen as numbers they
are the integers of a range, and storing an integer in them takes it to the one of that range which is
congruent to it modulo the width: the integer is *wrapped*.

Main statements:

* `DataType.wrap_modEq`, `DataType.wrap_eq_of_modEq`: wrapping is reduction modulo the width.
* `Value.Word.number_eq`: the numeric view of a word is the integer that it stands for.
* `Value.Word.holds_setNumber`, `Value.Word.holds_retype`: a stored number and a number that is carried
  over to another type are wrapped.
* `Value.Holds.payload_eq`: a word is known from its type and the integer it stands for.
-/

namespace Plc

/-! ## §1 Narrowing and widening -/

namespace Layout

theorem setWidth_ofInt {narrow wide : Nat} (le : narrow ≤ wide) (n : Int) :
    (BitVec.ofInt wide n).setWidth narrow = BitVec.ofInt narrow n := by
  apply BitVec.eq_of_toInt_eq
  -- Both narrow alike, and only the extension by the sign has a lemma on the integers.
  rw [← BitVec.signExtend_eq_setWidth_of_le _ le, BitVec.toInt_signExtend, BitVec.toInt_ofInt,
    BitVec.toInt_ofInt, Nat.min_eq_left le, Int.bmod_bmod_of_dvd (Nat.pow_dvd_pow 2 le)]

theorem toInt_setWidth_of_lt {narrow wide : Nat} (lt : narrow < wide) (w : BitVec narrow) :
    (w.setWidth wide).toInt = w.toNat := by
  have toNat := BitVec.toNat_setWidth_of_le (b := w) (Nat.le_of_lt lt)
  have small : 2 * (w.setWidth wide).toNat < 2 ^ wide := by
    have double : (2 : Nat) ^ (narrow + 1) ≤ 2 ^ wide := Nat.pow_le_pow_right Nat.zero_lt_two lt
    have bound := w.isLt
    rw [toNat]
    omega
  rw [BitVec.toInt_eq_toNat_of_lt small, toNat]

/-- The integer that a word stands for. -/
theorem toInt_widen (signed : Bool) {width : Nat} (w : BitVec width) (lt : width < 128) :
    (widen signed w).toInt = if signed then w.toInt else w.toNat := by
  cases signed with
  | true => exact BitVec.toInt_signExtend_of_le (Nat.le_of_lt lt)
  | false => exact toInt_setWidth_of_lt lt w

theorem widen_injective {signed : Bool} {width : Nat} {w w' : BitVec width} (lt : width < 128)
    (same : widen signed w = widen signed w') : w = w' := by
  have ints := congrArg BitVec.toInt same
  rw [toInt_widen signed w lt, toInt_widen signed w' lt] at ints
  cases signed with
  | true => exact BitVec.eq_of_toInt_eq ints
  | false => exact BitVec.eq_of_toNat_eq (Int.ofNat_inj.mp ints)

end Layout

/-! ## §2 Wrapping -/

namespace DataType

/-- The content of the type is a word of the nominal width, signed as the type is. -/
def IsWord (t : DataType) : Prop := t.layout = .word t.isSigned t.bitWidth

/-- The integer in the range of the type that is congruent to `n` modulo its width. -/
def wrap (t : DataType) (n : Int) : Int :=
  if t.isSigned then n.bmod (2 ^ t.bitWidth) else n % (2 ^ t.bitWidth : Nat)

theorem isWord_of_int {t : DataType} (int : t.belongs .int = true) : t.IsWord := by
  cases t <;> first | rfl | cases int

theorem bitWidth_le (t : DataType) : t.bitWidth ≤ 64 := by
  cases t <;> decide

theorem lt_wide {t : DataType} {i : Nat} (lt : i < t.bitWidth) : i < 128 :=
  Nat.lt_of_lt_of_le lt (Nat.le_trans t.bitWidth_le (by decide))

theorem natCast_two_pow (width : Nat) : ((2 ^ width : Nat) : Int) = 2 ^ width := by
  push_cast
  rfl

theorem wrap_modEq (t : DataType) (n : Int) : t.wrap n ≡ n [ZMOD 2 ^ t.bitWidth] := by
  rw [← natCast_two_pow]
  unfold wrap
  split
  · exact Int.bmod_emod
  · exact Int.mod_modEq n _

theorem wrap_eq_of_modEq {t : DataType} {m n : Int} (congruent : m ≡ n [ZMOD 2 ^ t.bitWidth]) :
    t.wrap m = t.wrap n := by
  rw [← natCast_two_pow] at congruent
  unfold wrap
  split
  · rw [← Int.emod_bmod m, ← Int.emod_bmod n, congruent]
  · exact congruent

theorem toInt_widen_ofInt (t : DataType) (n : Int) :
    (Layout.widen t.isSigned (BitVec.ofInt t.bitWidth n)).toInt = t.wrap n := by
  have lt : t.bitWidth < 128 := Nat.lt_of_le_of_lt t.bitWidth_le (by decide)
  rw [Layout.toInt_widen _ _ lt]
  unfold wrap
  split
  · exact BitVec.toInt_ofInt n
  · have positive : ((2 ^ t.bitWidth : Nat) : Int) ≠ 0 :=
      Int.natCast_ne_zero.mpr (Nat.ne_of_gt (Nat.two_pow_pos t.bitWidth))
    rw [BitVec.toNat_ofInt]
    exact Int.toNat_of_nonneg (Int.emod_nonneg n positive)

theorem narrow_ofInt (t : DataType) (n : Int) :
    Layout.narrow t.isSigned t.bitWidth (.ofInt n) = BitVec.ofInt t.bitWidth n :=
  Layout.setWidth_ofInt (Nat.le_trans t.bitWidth_le (by decide)) n

end DataType

/-! ## §3 Payloads that are words -/

namespace Layout

variable {l : Layout} {signed : Bool} {width : Nat}

theorem number?_word (word : l = .word signed width) (data : l.Carrier) :
    ∃ w : BitVec width, l.number? data = some (.int (widen signed w)) := by
  subst word
  exact ⟨data, rfl⟩

theorem store?_word (word : l = .word signed width) (n : Number) :
    ∃ data, l.store? n = some data ∧
      l.number? data = some (.int (widen signed (narrow signed width n))) := by
  subst word
  exact ⟨narrow signed width n, rfl, rfl⟩

theorem eq_of_number?_word (word : l = .word signed width) (lt : width < 128)
    {data data' : l.Carrier} (same : l.number? data = l.number? data') : data = data' := by
  subst word
  have words : widen signed data = widen signed data' := Number.int.inj (Option.some.inj same)
  exact widen_injective lt words

end Layout

theorem Payload.eq_of_number? {p q : Payload} {signed : Bool} {width : Nat}
    (shape : p.shape = q.shape) (word : p.shape.layout = .word signed width) (lt : width < 128)
    (same : p.number? = q.number?) : p = q := by
  obtain ⟨shape, data⟩ := p
  obtain ⟨shape', data'⟩ := q
  obtain rfl := shape
  exact congrArg (Payload.mk shape) (Layout.eq_of_number?_word word lt same)

/-! ## §4 Values that are words -/

namespace Value

/-- A well-formed value of type `t`. -/
structure OfType (v : Value) (t : DataType) : Prop where
  wf : v.WellFormed
  type : v.type = t

/-- A well-formed value whose type is one of words. -/
structure Word (v : Value) : Prop where
  wf : v.WellFormed
  type : v.type.IsWord

/-- A well-formed value of an integer type. -/
structure AnyInt (v : Value) : Prop where
  wf : v.WellFormed
  int : v.type.belongs .int = true

/-- The value is of type `t` and stands for `n`, wrapped to `t`. -/
structure Holds (v : Value) (t : DataType) (n : Int) : Prop where
  wf : v.WellFormed
  type : v.type = t
  toInt : v.toInt = t.wrap n

theorem AnyInt.word {v : Value} (int : v.AnyInt) : v.Word :=
  ⟨int.wf, DataType.isWord_of_int int.int⟩

theorem number_of_number? {v : Value} {n : Number} (found : v.number? = some n) : v.number = n := by
  unfold number
  rw [found]
  rfl

/-- A word shows what is left of the number that is stored in it. -/
theorem number?_setNumber_word {v : Value} {signed : Bool} {width : Nat}
    (word : v.payload.shape.layout = .word signed width) (n : Number) :
    (v.setNumber n).number? = some (.int (Layout.widen signed (Layout.narrow signed width n))) := by
  obtain ⟨data, stored, read⟩ := Layout.store?_word word n
  rw [number?_setNumber, Payload.number?_store, stored]
  exact read

/-- What is carried over to another type is stored in a fresh content of that type. -/
theorem payload_retype {v : Value} {t : DataType} {n : Number} (other : t ≠ v.type)
    (carries : v.carriesNumber = true) (found : v.number? = some n) :
    (v.retype t).payload = (ofNumber t n).payload := by
  unfold retype
  rw [if_neg other, if_pos carries, found]
  rfl

namespace Word

variable {v : Value}

theorem layout (word : v.Word) :
    v.payload.shape.layout = .word v.type.isSigned v.type.bitWidth := by
  rw [word.wf.shape]
  exact word.type

theorem exists_number (word : v.Word) : ∃ w : BitVec v.type.bitWidth,
    v.number? = some (.int (Layout.widen v.type.isSigned w)) :=
  Layout.number?_word word.layout v.payload.data

/-- The numeric view of a word is exact. -/
theorem number?_eq (word : v.Word) : v.number? = some (.ofInt v.toInt) := by
  obtain ⟨w, found⟩ := word.exists_number
  unfold toInt number
  rw [found]
  exact congrArg some (congrArg Number.int BitVec.ofInt_toInt.symm)

theorem number_eq (word : v.Word) : v.number = .ofInt v.toInt := by
  unfold number
  rw [word.number?_eq]
  rfl

theorem number_eq_int (word : v.Word) : v.number = .int v.number.toWide := by
  rw [word.number_eq]
  rfl

/-- What a word stands for is in the range of its type. -/
theorem wrap_toInt (word : v.Word) : v.type.wrap v.toInt = v.toInt := by
  obtain ⟨w, found⟩ := word.exists_number
  have read : v.toInt = (Layout.widen v.type.isSigned w).toInt := by
    unfold toInt number
    rw [found]
    rfl
  have lt : v.type.bitWidth < 128 := Nat.lt_of_le_of_lt v.type.bitWidth_le (by decide)
  have exact_word : w = BitVec.ofInt v.type.bitWidth v.toInt := by
    rw [read, Layout.toInt_widen _ w lt]
    split
    · exact BitVec.ofInt_toInt.symm
    · rw [BitVec.ofInt_natCast, BitVec.ofNat_toNat, BitVec.setWidth_eq]
  rw [← DataType.toInt_widen_ofInt, ← exact_word, ← read]

theorem holds_self (word : v.Word) : v.Holds v.type v.toInt := ⟨word.wf, rfl, word.wrap_toInt.symm⟩

/-- Storing an integer wraps it. -/
theorem holds_setNumber (word : v.Word) (n : Int) : (v.setNumber (.ofInt n)).Holds v.type n := by
  refine ⟨word.wf.setNumber _, rfl, ?_⟩
  have found : (v.setNumber (.ofInt n)).number? =
      some (.int (Layout.widen v.type.isSigned (BitVec.ofInt v.type.bitWidth n))) := by
    rw [number?_setNumber_word word.layout, v.type.narrow_ofInt]
  unfold toInt number
  rw [found]
  exact v.type.toInt_widen_ofInt n

end Word

theorem Holds.word {v : Value} {t : DataType} {n : Int} (holds : v.Holds t n) (type : t.IsWord) :
    v.Word := by
  obtain rfl := holds.type
  exact ⟨holds.wf, type⟩

theorem Holds.congr {v : Value} {t : DataType} {m n : Int} (holds : v.Holds t m)
    (congruent : m ≡ n [ZMOD 2 ^ t.bitWidth]) : v.Holds t n :=
  ⟨holds.wf, holds.type, holds.toInt.trans (DataType.wrap_eq_of_modEq congruent)⟩

theorem Holds.modEq {v : Value} {t : DataType} {n : Int} (holds : v.Holds t n) :
    v.toInt ≡ n [ZMOD 2 ^ t.bitWidth] := by
  rw [holds.toInt]
  exact t.wrap_modEq n

theorem toInt_of_payload {u v : Value} (same : u.payload = v.payload) : u.toInt = v.toInt := by
  unfold toInt number number?
  rw [same]

theorem Word.holds_ofNumber {t : DataType} (type : t.IsWord) (n : Int) :
    (ofNumber t (.ofInt n)).Holds t n :=
  (Word.mk (wellFormed_zero t) type).holds_setNumber n

/-- A container that is turned to a type of words and then given an integer. -/
theorem WellFormed.holds_setNumber {v : Value} (wf : v.WellFormed) {t : DataType} (type : t.IsWord) (n : Int) :
    ((v.retype t).setNumber (.ofInt n)).Holds t n := by
  have turned : (v.retype t).type = t := type_retype v t
  have word : (v.retype t).Word := ⟨wf.retype t, by rw [turned]; exact type⟩
  have stored := word.holds_setNumber n
  rw [turned] at stored
  exact stored

/-- A number that is carried over to a type of words is wrapped to it. -/
theorem Word.holds_retype {v : Value} (word : v.Word) (carries : v.carriesNumber = true)
    {t : DataType} (type : t.IsWord) : (v.retype t).Holds t v.toInt := by
  by_cases same : t = v.type
  case pos =>
    rw [same, retype_self]
    exact word.holds_self
  case neg =>
    have payload := payload_retype same carries word.number?_eq
    exact ⟨word.wf.retype t, type_retype v t,
      (toInt_of_payload payload).trans (holds_ofNumber type v.toInt).toInt⟩

/-- Two words of one type that stand for the same integer have the same payload. -/
theorem Holds.payload_eq {u v : Value} {t : DataType} {n : Int} (type : t.IsWord)
    (first : u.Holds t n) (second : v.Holds t n) : u.payload = v.payload := by
  have word := first.word type
  have shape : u.payload.shape = v.payload.shape := by
    rw [first.wf.shape, second.wf.shape, first.type, second.type]
  refine Payload.eq_of_number? shape word.layout
    (Nat.lt_of_le_of_lt u.type.bitWidth_le (by decide)) ?_
  calc u.number? = some (.ofInt u.toInt) := word.number?_eq
    _ = some (.ofInt v.toInt) := by rw [first.toInt, second.toInt]
    _ = v.number? := (second.word type).number?_eq.symm

/-- The same values but for the flags. -/
structure Alike (u v : Value) : Prop where
  type : u.type = v.type
  categories : u.categories = v.categories
  payload : u.payload = v.payload

/-- No flag of the value is set. -/
structure Unflagged (v : Value) : Prop where
  attributes : v.attributes = {}
  state : v.state = {}

theorem Alike.eq {u v : Value} (alike : u.Alike v) (plain : u.Unflagged) (plain' : v.Unflagged) :
    u = v := by
  obtain ⟨type, categories, payload, attributes, state⟩ := u
  obtain ⟨rfl, rfl, rfl⟩ := alike
  obtain ⟨rfl, rfl⟩ := plain
  rw [← plain'.attributes, ← plain'.state]

theorem Unflagged.retype {v : Value} (plain : v.Unflagged) (t : DataType) :
    (v.retype t).Unflagged :=
  ⟨(attributes_retype v t).trans plain.attributes, (state_retype v t).trans plain.state⟩

theorem unflagged_ofNumber (t : DataType) (n : Number) : (ofNumber t n).Unflagged := ⟨rfl, rfl⟩

theorem Holds.alike {u v : Value} {t : DataType} {n : Int} (type : t.IsWord) (first : u.Holds t n)
    (second : v.Holds t n) : u.Alike v where
  type := first.type.trans second.type.symm
  categories := by rw [first.wf.categories, second.wf.categories, first.type, second.type]
  payload := first.payload_eq type second

end Value

/-! ## §5 Integers -/

namespace DataType

theorem mem_all (t : DataType) : t ∈ all := List.mem_of_getElem? t.all_getElem?_rank

theorem rank_injective {s t : DataType} (same : s.rank = t.rank) : s = t := by
  have entries : some s = some t := by rw [← s.all_getElem?_rank, ← t.all_getElem?_rank, same]
  exact Option.some.inj entries

/-- Among integers the wider type has the higher rank. -/
theorem bitWidth_le_of_rank_le {s t : DataType} (int : s.belongs .int = true)
    (int' : t.belongs .int = true) (le : s.rank ≤ t.rank) : s.bitWidth ≤ t.bitWidth := by
  have all_pairs : ∀ s ∈ all, ∀ t ∈ all, s.belongs .int = true → t.belongs .int = true →
      s.rank ≤ t.rank → s.bitWidth ≤ t.bitWidth := by decide +kernel
  exact all_pairs s s.mem_all t t.mem_all int int' le

theorem wider_of_le {s t : DataType} (le : t.rank ≤ s.rank) : s.wider t = s :=
  if_neg (Nat.not_lt.mpr le)

theorem wider_self (t : DataType) : t.wider t = t := wider_of_le (Nat.le_refl t.rank)

theorem wider_eq (s t : DataType) : s.wider t = s ∨ s.wider t = t := by
  unfold wider
  split
  · exact Or.inr rfl
  · exact Or.inl rfl

theorem rank_le_wider_left (s t : DataType) : s.rank ≤ (s.wider t).rank := by
  unfold wider
  split <;> omega

theorem rank_le_wider_right (s t : DataType) : t.rank ≤ (s.wider t).rank := by
  unfold wider
  split <;> omega

theorem wider_comm (s t : DataType) : s.wider t = t.wider s := by
  apply rank_injective
  unfold wider
  split <;> split <;> omega

/-- The range of INT. -/
theorem wrap_int (n : Int) : -2 ^ 15 ≤ int.wrap n ∧ int.wrap n < 2 ^ 15 :=
  ⟨Int.le_bmod (by decide), Int.bmod_lt (by decide)⟩

theorem wrap_int_self {n : Int} (least : -2 ^ 15 ≤ n) (most : n < 2 ^ 15) : int.wrap n = n := by
  show n.bmod 65536 = n
  exact Int.bmod_eq_of_le (by omega) (by omega)

theorem int_wider {s t : DataType} (int : s.belongs .int = true) (int' : t.belongs .int = true) :
    (s.wider t).belongs .int = true := by
  rcases s.wider_eq t with same | same
  · rw [same]
    exact int
  · rw [same]
    exact int'

end DataType

namespace Value

/-- Promotion turns a value to the higher-ranked of two types. -/
theorem promote_eq (v : Value) (t : DataType) : v.promote t = v.retype (v.type.wider t) := by
  unfold promote promote? DataType.wider
  split
  · rfl
  · exact (retype_self v).symm

theorem WellFormed.belongsAny {v : Value} (wf : v.WellFormed) {allowed : List Category}
    (member : v.type.belongsAny allowed = true) : v.belongsAny allowed = true := by
  rw [wf.belongsAny_eq]
  exact member

namespace AnyInt

variable {v : Value}

theorem belongsAny (int : v.AnyInt) {c : Category} (member : v.type.belongs c = true)
    {allowed : List Category} (mem : c ∈ allowed) : v.belongsAny allowed = true :=
  int.wf.belongsAny (List.any_eq_true.mpr ⟨c, mem, member⟩)

theorem int_belongsAny (int : v.AnyInt) : v.belongsAny [.int] = true :=
  int.belongsAny int.int List.mem_cons_self

theorem num (int : v.AnyInt) : v.type.belongs .num = true :=
  Bool.or_eq_true_iff.mpr (Or.inl int.int)

theorem magnitude_belongsAny (int : v.AnyInt) {allowed : List Category}
    (mem : .magnitude ∈ allowed) : v.belongsAny allowed = true := by
  have magnitude : v.type.belongs .magnitude = true := Bool.or_eq_true_iff.mpr (Or.inl int.num)
  exact int.belongsAny magnitude mem

theorem not_real (int : v.AnyInt) : v.belongsAny [.real] = false := by
  have every_type : ∀ t ∈ DataType.all, t.belongs .int = true →
      [Category.real].any (· ∈ t.categories) = false := by decide +kernel
  unfold Value.belongsAny
  rw [int.wf.categories]
  exact every_type v.type v.type.mem_all int.int

theorem carriesNumber (int : v.AnyInt) : v.carriesNumber = true :=
  Bool.or_eq_true_iff.mpr (Or.inr (int.belongsAny int.num List.mem_cons_self))

theorem ofNumber {t : DataType} (int : t.belongs .int = true) (n : Number) :
    (ofNumber t n).AnyInt :=
  ⟨(wellFormed_zero t).setNumber n, int⟩

theorem holds_retype (int : v.AnyInt) {t : DataType} (type : t.belongs .int = true) :
    (v.retype t).Holds t v.toInt :=
  int.word.holds_retype int.carriesNumber (DataType.isWord_of_int type)

end AnyInt

theorem Holds.anyInt {v : Value} {t : DataType} {n : Int} (holds : v.Holds t n)
    (int : t.belongs .int = true) : v.AnyInt := by
  obtain rfl := holds.type
  exact ⟨holds.wf, int⟩

end Value

end Plc
