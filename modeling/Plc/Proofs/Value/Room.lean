import Plc.Proofs.Value.TimeSpan

/-!
# Integers that a content has room for

A number that is stored is narrowed to the content it is stored in. An integer comes back from there as it
was exactly if some content of the layout reads as that integer: zero or one for a flag, the range that a
word has by its width and its sign, and for TIME the milliseconds of a duration. A real reads as a real, so
it has room for no integer at all.

Main statements:

* `Layout.hasRoom_of_number?`: there is room for an integer that some content reads as.
* `Layout.HasRoom.stores`: where there is room for an integer, it is read back.
* `Value.number?_setNumber_iff`: an integer that is written to a value is read back exactly if there is room.
* `Value.type_widenTo`: the type of a container that has been made ready.
-/

namespace Plc

/-! ## §1 Wide words -/

namespace Number

/-- The integer is in the range of wide words. -/
def Fits (n : Int) : Prop := -2 ^ 127 ≤ n ∧ n < 2 ^ 127

variable {m n : Int}

theorem Fits.toInt_ofInt (fits : Fits n) : (BitVec.ofInt 128 n).toInt = n :=
  BitVec.toInt_ofInt_eq_self (by decide) fits.1 fits.2

theorem toInt_of_int_eq {x : Wide} (fits : Fits n) (same : int x = ofInt n) : x.toInt = n := by
  rw [Number.int.inj same, fits.toInt_ofInt]

theorem eq_of_ofInt_eq (fits : Fits m) (fits' : Fits n) (same : ofInt m = ofInt n) : m = n := by
  rw [← fits.toInt_ofInt]
  exact toInt_of_int_eq fits' same

end Number

/-! ## §2 Room in a content -/

namespace Layout

/-- A word has at least one bit, and fewer than wide words have. -/
def Sized : Layout → Prop
  | word _ width => 0 < width ∧ width < 128
  | _ => True

/-- The integer is in the range of the layout. -/
def HasRoom : Layout → Int → Prop
  | flag, n => n = 0 ∨ n = 1
  | word signed width, n => wordLeast signed width ≤ n ∧ n ≤ wordGreatest signed width
  | duration, n => -9223372036854 ≤ n ∧ n ≤ 9223372036854
  | single, _ | double, _ | empty, _ | text, _ | bytes, _ | record, _ | timer, _ => False

instance (l : Layout) (n : Int) : Decidable (l.HasRoom n) := by
  cases l <;> unfold HasRoom <;> infer_instance

variable {l : Layout} {signed : Bool} {width : Nat} {n : Int}

theorem hasRoom_widen (signed : Bool) (lt : width < 128) (w : BitVec width) :
    (word signed width).HasRoom (widen signed w).toInt := by
  rw [toInt_widen signed w lt]
  cases signed with
  | true => exact ⟨BitVec.le_toInt w, Int.le_sub_one_of_lt BitVec.toInt_lt⟩
  | false =>
    have below : (w.toNat : Int) < 2 ^ width := by exact_mod_cast w.isLt
    exact ⟨Int.natCast_nonneg w.toNat, Int.le_sub_one_of_lt below⟩

theorem toInt_widen_of_hasRoom (positive : 0 < width) (lt : width < 128)
    (room : (word signed width).HasRoom n) : (widen signed (BitVec.ofInt width n)).toInt = n := by
  obtain ⟨least, greatest⟩ := room
  rw [toInt_widen signed _ lt]
  cases signed with
  | true => exact BitVec.toInt_ofInt_eq_self positive least (Int.lt_of_le_sub_one greatest)
  | false =>
    have below : n < (2 ^ width : Nat) := by
      rw [DataType.natCast_two_pow]
      exact Int.lt_of_le_sub_one greatest
    have nonneg : 0 ≤ n := least
    rw [if_neg Bool.false_ne_true, BitVec.toNat_ofInt, Int.emod_eq_of_lt nonneg below]
    exact Int.toNat_of_nonneg nonneg

theorem int_widen_of_hasRoom (positive : 0 < width) (lt : width < 128)
    (room : (word signed width).HasRoom n) :
    Number.int (widen signed (BitVec.ofInt width n)) = .ofInt n := by
  have back := toInt_widen_of_hasRoom positive lt room
  rw [← BitVec.ofInt_toInt (x := widen signed (BitVec.ofInt width n)), back]
  rfl

/-- What TIME shows as an integer is the whole number of its milliseconds. -/
theorem millis_of_timeToNumber {d : Duration} (fits : Number.Fits n) (shown : timeToNumber d = .ofInt n) :
    d.millis = n := by
  by_cases whole : d.Whole
  case pos =>
    have least := d.least_le_millis
    have greatest := d.millis_le_greatest
    rw [timeToNumber_of_whole whole] at shown
    exact Number.eq_of_ofInt_eq ⟨by omega, by omega⟩ fits shown
  case neg =>
    have broken : timeToNumber d = .real (.ofInt d.nanos / .ofInt million) :=
      if_neg fun none_left => whole (Int.dvd_of_tmod_eq_zero none_left)
    rw [broken] at shown
    cases shown

/-- There is room for an integer that a content reads as. -/
theorem hasRoom_of_number? (sized : l.Sized) (fits : Number.Fits n) {data : l.Carrier}
    (read : l.number? data = some (.ofInt n)) : l.HasRoom n := by
  cases l with
  | flag =>
    have bit := Number.toInt_of_int_eq fits (Option.some.inj read)
    cases data with
    | false => exact Or.inl bit.symm
    | true => exact Or.inr bit.symm
  | word signed width =>
    have exact_word := Number.toInt_of_int_eq fits (Option.some.inj read)
    exact exact_word ▸ hasRoom_widen signed sized.2 data
  | duration =>
    have millis := millis_of_timeToNumber fits (Option.some.inj read)
    exact millis ▸ ⟨data.least_le_millis, data.millis_le_greatest⟩
  | single => cases read
  | double => cases read
  | empty | text | bytes | record | timer => cases read

/-- Where there is room for an integer, it is read back. -/
theorem HasRoom.stores (sized : l.Sized) (room : l.HasRoom n) :
    ∃ data, l.store? (.ofInt n) = some data ∧ l.number? data = some (.ofInt n) := by
  cases l with
  | flag => rcases room with rfl | rfl <;> exact ⟨_, rfl, rfl⟩
  | word signed width =>
    have narrowed : narrow signed width (.ofInt n) = BitVec.ofInt width n :=
      setWidth_ofInt (Nat.le_of_lt sized.2) n
    refine ⟨_, rfl, ?_⟩
    show some (Number.int (widen signed (narrow signed width (.ofInt n)))) = _
    rw [narrowed, int_widen_of_hasRoom sized.1 sized.2 room]
  | duration =>
    obtain ⟨least, greatest⟩ := room
    have stored : numberToTime (.ofInt n) = .ofMillis n :=
      numberToTime_of_fits (by omega) (by omega)
    have nanos : (Duration.ofMillis n).nanos = n * 1000000 :=
      Duration.nanos_saturate (by omega) (by omega)
    have whole : (Duration.ofMillis n).Whole := Dvd.intro_left n nanos.symm
    have millis : (Duration.ofMillis n).millis = n := by
      have scaled := whole.nanos_eq
      omega
    refine ⟨_, rfl, ?_⟩
    show some (timeToNumber (numberToTime (.ofInt n))) = _
    rw [stored, timeToNumber_of_whole whole, millis]
  | single | double | empty | text | bytes | record | timer => cases room

end Layout

/-! ## §3 Room in a value -/

theorem DataType.sized_layout (t : DataType) : t.layout.Sized := by
  cases t <;> trivial

namespace DataType

/-- The type has a value that reads as the integer. -/
def HasRoom (t : DataType) (n : Int) : Prop := t.layout.HasRoom n

instance (t : DataType) (n : Int) : Decidable (t.HasRoom n) :=
  inferInstanceAs (Decidable (t.layout.HasRoom n))

theorem IsWord.wrap_of_hasRoom {t : DataType} (word : t.IsWord) {n : Int} (room : t.HasRoom n) :
    t.wrap n = n := by
  have sized := t.sized_layout
  unfold HasRoom at room
  rw [word] at room sized
  rw [← toInt_widen_ofInt]
  exact Layout.toInt_widen_of_hasRoom sized.1 sized.2 room

end DataType

namespace Value

variable {v : Value} {n : Int}

/-- There is room for the integer that a value reads as. -/
theorem WellFormed.hasRoom (wf : v.WellFormed) (fits : Number.Fits n)
    (read : v.number? = some (.ofInt n)) : v.type.HasRoom n := by
  have layout := wf.layout
  have room : v.payload.shape.layout.HasRoom n :=
    Layout.hasRoom_of_number? (layout ▸ v.type.sized_layout) fits read
  rw [layout] at room
  exact room

/-- An integer that is written to a value is read back exactly if there is room for it. -/
theorem WellFormed.number?_setNumber_iff (wf : v.WellFormed) (fits : Number.Fits n) :
    (v.setNumber (.ofInt n)).number? = some (.ofInt n) ↔ v.type.HasRoom n := by
  constructor
  · exact (wf.setNumber (.ofInt n)).hasRoom fits
  · intro room
    have layout := wf.layout
    have room' : v.payload.shape.layout.HasRoom n := layout ▸ room
    obtain ⟨data, stored, read⟩ := room'.stores (layout ▸ v.type.sized_layout)
    rw [number?_setNumber, Payload.number?_store, stored]
    exact read

theorem AnyInt.hasRoom (int : v.AnyInt) : v.type.HasRoom v.toInt := by
  obtain ⟨w, found⟩ := int.word.exists_number
  have lt : v.type.bitWidth < 128 := Nat.lt_of_le_of_lt v.type.bitWidth_le (by decide)
  have room := Layout.hasRoom_widen v.type.isSigned lt w
  have read : v.toInt = (Layout.widen v.type.isSigned w).toInt := by
    unfold toInt number
    rw [found]
    rfl
  unfold DataType.HasRoom
  rw [int.word.type, read]
  exact room

/-- A value that a number was wrapped to reads as that number exactly if its type has room for it. -/
theorem Holds.toInt_eq_iff {t : DataType} (holds : v.Holds t n) (int : t.belongs .int = true) :
    v.toInt = n ↔ t.HasRoom n := by
  constructor
  · intro same
    have room := (holds.anyInt int).hasRoom
    rw [holds.type, same] at room
    exact room
  · intro room
    rw [holds.toInt, (DataType.isWord_of_int int).wrap_of_hasRoom room]

/-- The type that a container comes to when it is made ready for a number of type `t`: its own type, if
that is one of numbers and has the higher rank. -/
def readyType (v : Value) (t : DataType) : DataType :=
  if v.number?.isSome ∧ t.rank < v.type.rank then v.type else t

theorem type_widenTo (v : Value) (t : DataType) : (v.widenTo t).type = v.readyType t := by
  unfold widenTo readyType
  by_cases number : v.number?.isSome = true
  case pos =>
    have numeric : ¬v.number?.isNone = true := by rw [← Option.not_isSome, number]; decide
    rw [if_neg numeric, promote_eq, type_retype, DataType.wider]
    rcases Nat.lt_trichotomy v.type.rank t.rank with below | same | above
    · rw [if_pos below, if_neg fun outranks => Nat.lt_asymm below outranks.2]
    · rw [if_neg (by omega), if_neg (by omega), DataType.rank_injective same]
    · rw [if_neg (Nat.lt_asymm above), if_pos ⟨number, above⟩]
  case neg =>
    have none : v.number?.isNone = true := by rw [← Option.not_isSome, Bool.eq_false_iff.mpr number]; rfl
    rw [if_pos none, type_retype, if_neg fun outranks => number outranks.1]

end Value

end Plc
