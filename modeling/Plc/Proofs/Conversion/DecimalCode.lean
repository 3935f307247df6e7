import Mathlib.Tactic.Ring
import Plc.Proofs.Conversion.RoundTrip
import Plc.Proofs.Value.Integral

/-!
# Decimal coding is one-to-one

Coding takes the decimal digits of a number and puts them down as digits to the base sixteen; decoding
goes the other way. Both are one function of natural numbers, `recode`, with the bases exchanged, and
taking it there and back changes nothing as long as every digit is one to both bases.

The loops work in words of 64 bits. Up to sixteen digits nothing is lost there: no digit is shifted out,
and no sum or weight passes the greatest word.

Main statements:

* `Shared.recode_recode`: there and back again.
* `coding_run`, `encode?_eq`: the loop of coding after any number of steps, and its outcome.
* `decoding_run`, `decode?_eq_some`, `decode?_eq_none`: the same of decoding.
* `Operator.decimalCode_bijective`: the operators that code, decode and check.
-/

namespace Plc

namespace DecimalCode

/-! ## §1 Digits to two bases -/

/-- The lowest `count` digits of `n` to one base, put down as digits to another. -/
def recode (source target : Nat) : Nat → Nat → Nat
  | 0, _ => 0
  | count + 1, n => recode source target count n + n / source ^ count % source * target ^ count

variable {source target count m n : Nat}

theorem recode_self (base count n : Nat) : recode base base count n = n % base ^ count := by
  induction count with
  | zero => rw [Nat.pow_zero, Nat.mod_one, recode]
  | succ count ih => rw [recode, ih, Nat.mod_pow_succ, Nat.mul_comm]

/-- Only the digits matter. -/
theorem recode_congr {source' : Nat}
    (same : ∀ i < count, m / source ^ i % source = n / source' ^ i % source') :
    recode source target count m = recode source' target count n := by
  induction count with
  | zero => rfl
  | succ count ih =>
    have lower := ih fun i lt => same i (Nat.lt_succ_of_lt lt)
    rw [recode, recode, lower, same count (Nat.lt_succ_self count)]

/-- Every one of the digits is a digit to the other base as well. -/
def Shared (source target count n : Nat) : Prop := ∀ i < count, n / source ^ i % source < target

theorem shared_succ : Shared source target (count + 1) n ↔
    Shared source target count n ∧ n / source ^ count % source < target := by
  constructor
  · intro shared
    exact ⟨fun i lt => shared i (Nat.lt_succ_of_lt lt), shared count (Nat.lt_succ_self count)⟩
  · rintro ⟨lower, last⟩ i lt
    rcases Nat.lt_or_eq_of_le (Nat.le_of_lt_succ lt) with below | rfl
    · exact lower i below
    · exact last

theorem Shared.recode_lt (shared : Shared source target count n) :
    recode source target count n < target ^ count := by
  induction count with
  | zero => exact Nat.one_pos
  | succ count ih =>
    obtain ⟨lower, last⟩ := shared_succ.mp shared
    replace lower := ih lower
    calc recode source target count n + n / source ^ count % source * target ^ count
      _ < target ^ count + n / source ^ count % source * target ^ count := Nat.add_lt_add_right lower _
      _ = (n / source ^ count % source + 1) * target ^ count := by ring
      _ ≤ target * target ^ count := Nat.mul_le_mul_right _ last
      _ = target ^ (count + 1) := by rw [Nat.pow_succ, Nat.mul_comm]

/-- The digits are in their places. -/
theorem Shared.digit_recode (shared : Shared source target count n) {i : Nat} (lt : i < count) :
    recode source target count n / target ^ i % target = n / source ^ i % source := by
  induction count with
  | zero => cases lt
  | succ count ih =>
    obtain ⟨digits, last⟩ := shared_succ.mp shared
    have lower := digits.recode_lt
    have pos : 0 < target := Nat.lt_of_le_of_lt (Nat.zero_le _) last
    rw [recode]
    rcases Nat.lt_or_eq_of_le (Nat.le_of_lt_succ lt) with below | rfl
    · -- The digit above is a multiple of the base and does not show.
      have above : target ^ count = target ^ i * (target * target ^ (count - i - 1)) := by
        rw [← Nat.pow_succ', ← Nat.pow_add]
        congr 1
        omega
      rw [above, Nat.mul_left_comm, Nat.add_mul_div_left _ _ (Nat.pow_pos pos), Nat.mul_left_comm,
        Nat.add_mul_mod_self_left]
      exact ih digits below
    · rw [Nat.add_mul_div_right _ _ (Nat.pow_pos pos), Nat.div_eq_of_lt lower, Nat.zero_add,
        Nat.mod_eq_of_lt last]

/-- What was put down as digits of the one base is as good for the other. -/
theorem Shared.back (shared : Shared source target count n) (pos : 0 < source) :
    Shared target source count (recode source target count n) := by
  intro i lt
  rw [shared.digit_recode lt]
  exact Nat.mod_lt _ pos

theorem Shared.recode_recode (shared : Shared source target count n) :
    recode target source count (recode source target count n) = n % source ^ count := by
  rw [← recode_self source count n]
  exact recode_congr fun i lt => shared.digit_recode lt

/-- Decimal digits are digits to the base sixteen. -/
theorem shared_decimal (count n : Nat) : Shared 10 16 count n := fun i _ =>
  Nat.lt_of_lt_of_le (Nat.mod_lt _ (by decide)) (by decide)

/-! ## §2 Coding -/

theorem sixteen_pow (place : Nat) : (16 : Nat) ^ place = 2 ^ (4 * place) :=
  (Nat.pow_mul 2 4 place).symm

theorem sixteen_pow_le {place : Nat} (le : place ≤ 16) : (16 : Nat) ^ place ≤ 2 ^ 64 :=
  show (16 : Nat) ^ place ≤ 16 ^ 16 from Nat.pow_le_pow_right (by omega) le

theorem word?_natCast {n : Nat} (lt : n < 2 ^ 64) : word? n = some (.ofNat 64 n) := by
  have bounds : 0 ≤ (n : Int) ∧ (n : Int) < 2 ^ 64 := ⟨Int.natCast_nonneg n, by exact_mod_cast lt⟩
  unfold word?
  rw [if_pos bounds, BitVec.ofInt_natCast]

/-- A digit above a code of fewer digits is added to it. -/
theorem toNat_putDigit {code digit : Word} {place : Nat} (lt : place < 16)
    (below : code.toNat < 16 ^ place) (small : digit.toNat < 16) :
    (code ||| digit <<< (4 * place)).toNat = code.toNat + digit.toNat * 16 ^ place := by
  have inside : digit.toNat * 16 ^ place < 2 ^ 64 := by
    calc digit.toNat * 16 ^ place
      _ < 16 * 16 ^ place := Nat.mul_lt_mul_of_pos_right small (Nat.pow_pos (by decide))
      _ = 16 ^ (place + 1) := Nat.pow_succ'.symm
      _ ≤ 2 ^ 64 := sixteen_pow_le lt
  rw [sixteen_pow] at below inside
  rw [sixteen_pow, BitVec.toNat_or, BitVec.toNat_shiftLeft, Nat.shiftLeft_eq, Nat.mod_eq_of_lt inside,
    Nat.or_comm, ← Nat.shiftLeft_eq, ← Nat.shiftLeft_add_eq_or_of_lt below, Nat.add_comm]

/-- Coding after any number of steps: the digits taken off so far are coded, the others are left. -/
theorem coding_run (n : Word) {count : Nat} (le : count ≤ 16) :
    let coded := (List.range count).foldl Coding.next { rest := n }
    coded.rest.toNat = n.toNat / 10 ^ count ∧ coded.code.toNat = recode 10 16 count n.toNat := by
  induction count with
  | zero => exact ⟨(Nat.div_one _).symm, rfl⟩
  | succ count ih =>
    obtain ⟨rest, code⟩ := ih (Nat.le_of_succ_le le)
    rw [List.range_succ, List.foldl_append, List.foldl_cons, List.foldl_nil]
    generalize (List.range count).foldl Coding.next { rest := n } = coded at rest code
    have digit : (coded.rest % 10).toNat = n.toNat / 10 ^ count % 10 := by
      rw [BitVec.toNat_umod, rest]
      rfl
    constructor
    · -- Taking a digit off the rest divides by ten once more.
      show (coded.rest / 10).toNat = _
      rw [BitVec.toNat_udiv, rest, Nat.pow_succ, ← Nat.div_div_eq_div_mul]
      rfl
    · show (coded.code ||| (coded.rest % 10) <<< (4 * count)).toNat = _
      have below : coded.code.toNat < 16 ^ count := code ▸ (shared_decimal count n.toNat).recode_lt
      have small : (coded.rest % 10).toNat < 16 := digit ▸ Nat.lt_trans (Nat.mod_lt _ (by decide)) (by decide)
      rw [toNat_putDigit le below small, code, digit, recode]

/-- A number is coded if it has no more digits than there is room for. -/
theorem encode?_eq (n : Word) {digits : Nat} (le : digits ≤ 16) :
    encode? digits n =
      if n.toNat < 10 ^ digits then some (.ofNat 64 (recode 10 16 digits n.toNat)) else none := by
  obtain ⟨rest, code⟩ := coding_run n le
  have nothing : ((List.range digits).foldl Coding.next { rest := n }).rest = 0 ↔
      n.toNat < 10 ^ digits := by
    rw [← BitVec.toNat_inj, rest, show (0 : Word).toNat = 0 from rfl, Nat.div_eq_zero_iff]
    have pos : (10 : Nat) ^ digits ≠ 0 := Nat.ne_of_gt (Nat.pow_pos (by decide))
    simp only [pos, false_or]
  unfold encode?
  simp only [nothing]
  split
  · rw [← code, BitVec.ofNat_toNat, BitVec.setWidth_eq]
  · rfl

/-! ## §3 Decoding -/

theorem toNat_digitAt (bits : Word) (place : Nat) :
    (digitAt bits place).toNat = bits.toNat / 16 ^ place % 16 := by
  unfold digitAt
  rw [BitVec.toNat_and, BitVec.toNat_ushiftRight, Nat.shiftRight_eq_div_pow, sixteen_pow]
  exact Nat.and_two_pow_sub_one_eq_mod _ 4

/-- Weights of up to sixteen digits are words. -/
theorem toNat_tenfold {weight : Word} {place : Nat} (lt : place < 16) (eq : weight.toNat = 10 ^ place) :
    (tenfold weight).toNat = 10 ^ (place + 1) := by
  have inside : weight.toNat * 10 < 2 ^ 64 := by
    rw [eq, ← Nat.pow_succ]
    exact Nat.lt_of_le_of_lt (Nat.pow_le_pow_right (by decide) lt) (by decide)
  unfold tenfold
  rw [if_pos inside, BitVec.toNat_mul, show (10 : Word).toNat = 10 from rfl, Nat.mod_eq_of_lt inside, eq,
    Nat.pow_succ]

theorem digitAt_le_nine {bits : Word} {place : Nat} :
    ¬9 < digitAt bits place ↔ bits.toNat / 16 ^ place % 16 < 10 := by
  rw [BitVec.not_lt, BitVec.le_def, toNat_digitAt]
  exact Nat.lt_succ_iff.symm

/-- Decoding after any number of steps: the digits read so far make the number, if they are decimal. -/
theorem decoding_run (bits : Word) {count : Nat} (le : count ≤ 16) :
    Shared 16 10 count bits.toNat ∧
        (∃ d, (List.range count).foldlM (Decoding.next? bits) {} = some d ∧
          d.number.toNat = recode 16 10 count bits.toNat ∧ d.weight.toNat = 10 ^ count) ∨
      ¬Shared 16 10 count bits.toNat ∧
        (List.range count).foldlM (Decoding.next? bits) {} = none := by
  induction count with
  | zero => exact Or.inl ⟨fun _ lt => absurd lt (Nat.not_lt_zero _), {}, rfl, rfl, rfl⟩
  | succ count ih =>
    rw [shared_succ, List.range_succ, List.foldlM_append]
    rcases ih (Nat.le_of_succ_le le) with ⟨lower, d, run, number, weight⟩ | ⟨other, run⟩
    case inr =>
      rw [run]
      exact Or.inr ⟨fun both => other both.1, rfl⟩
    case inl =>
      rw [run]
      show _ ∧ (∃ d', (Decoding.next? bits d count >>= pure) = some d' ∧ _) ∨
        _ ∧ (Decoding.next? bits d count >>= pure) = none
      rw [bind_pure]
      unfold Decoding.next?
      by_cases big : 9 < digitAt bits count
      case pos =>
        rw [if_pos big]
        exact Or.inr ⟨fun both => digitAt_le_nine.mpr both.2 big, rfl⟩
      case neg =>
        have last := digitAt_le_nine.mp big
        -- The number stays below a power of ten that is a word itself, so no sum is cut off.
        have bound : recode 16 10 (count + 1) bits.toNat < 2 ^ 64 :=
          calc recode 16 10 (count + 1) bits.toNat
            _ < 10 ^ (count + 1) := (shared_succ.mpr ⟨lower, last⟩).recode_lt
            _ ≤ 10 ^ 16 := Nat.pow_le_pow_right (by decide) le
            _ ≤ 2 ^ 64 := by decide
        have summand : bits.toNat / 16 ^ count % 16 * 10 ^ count < 2 ^ 64 :=
          Nat.lt_of_le_of_lt (Nat.le_add_left _ _) bound
        rw [if_neg big]
        refine Or.inl ⟨⟨lower, last⟩, _, rfl, ?_, toNat_tenfold le weight⟩
        show (d.number + digitAt bits count * d.weight).toNat = _
        rw [BitVec.toNat_add, BitVec.toNat_mul, toNat_digitAt, weight, number, Nat.mod_eq_of_lt summand]
        exact Nat.mod_eq_of_lt bound

/-- A word is decoded if its digits are decimal. -/
theorem decode?_eq_some {digits : Nat} (le : digits ≤ 16) {bits : Word}
    (shared : Shared 16 10 digits bits.toNat) :
    ∃ n, decode? digits bits = some n ∧ n.toNat = recode 16 10 digits bits.toNat := by
  rcases decoding_run bits le with ⟨_, d, run, number, _⟩ | ⟨other, _⟩
  · exact ⟨d.number, by rw [decode?, run]; rfl, number⟩
  · exact absurd shared other

/-- Every one of the lowest groups of four bits is a decimal digit. -/
def Valid (digits : Nat) (bits : Word) : Prop := ∀ i < digits, digitAt bits i ≤ 9

theorem shared_iff_valid {digits : Nat} {bits : Word} :
    Shared 16 10 digits bits.toNat ↔ Valid digits bits := by
  simp only [Shared, Valid, ← digitAt_le_nine, BitVec.not_lt]

theorem decode?_eq_none {digits : Nat} (le : digits ≤ 16) {bits : Word}
    (other : ¬Shared 16 10 digits bits.toNat) : decode? digits bits = none := by
  rcases decoding_run bits le with ⟨shared, _⟩ | ⟨_, run⟩
  · exact absurd shared other
  · rw [decode?, run]
    rfl

end DecimalCode

open DecimalCode

/-! ## §4 Unsigned words -/

namespace DataType

/-- A type of words that have room for so many decimal digits, and for nothing else. -/
structure Codes (t : DataType) (digits : Nat) : Prop where
  bit : t.belongs .bit = true
  word : t.IsWord
  unsigned : t.isSigned = false
  width : t.bitWidth = 4 * digits
  few : digits ≤ 16

theorem codes_of_codedDigits? {t : DataType} {digits : Nat} (coded : t.codedDigits? = some digits) :
    t.Codes digits := by
  cases t <;> cases coded <;> exact ⟨rfl, rfl, rfl, rfl, by decide⟩

/-- Unsigned integers are words without a sign. -/
theorem isWord_of_unsigned {t : DataType} (unsigned : t.belongs .unsigned = true) :
    t.IsWord ∧ t.isSigned = false := by
  cases t <;> first | exact ⟨rfl, rfl⟩ | cases unsigned

theorem wrap_of_lt {t : DataType} (unsigned : t.isSigned = false) {n : Nat}
    (lt : n < 2 ^ t.bitWidth) : t.wrap n = n := by
  unfold wrap
  rw [unsigned]
  exact Int.emod_eq_of_lt (Int.natCast_nonneg n) (Int.ofNat_lt.mpr lt)

end DataType

namespace Value

/-- An unsigned word stands for a natural number, and its bits do. -/
theorem Word.exists_natCast {v : Value} (word : v.Word) (unsigned : v.type.isSigned = false) :
    ∃ n : Nat, n < 2 ^ v.type.bitWidth ∧ v.toInt = n ∧ v.bitPattern.toNat = n := by
  have range : v.toInt % (2 ^ v.type.bitWidth : Nat) = v.toInt := by
    have wrapped := word.wrap_toInt
    unfold DataType.wrap at wrapped
    rwa [unsigned] at wrapped
  have positive : (0 : Int) < (2 ^ v.type.bitWidth : Nat) := Int.natCast_pos.mpr (Nat.two_pow_pos _)
  obtain ⟨n, eq⟩ := Int.eq_ofNat_of_zero_le (range ▸ Int.emod_nonneg v.toInt (Int.ne_of_gt positive))
  have lt : n < 2 ^ v.type.bitWidth := Int.ofNat_lt.mp (eq ▸ range ▸ Int.emod_lt_of_pos v.toInt positive)
  have le : (2 : Nat) ^ v.type.bitWidth ≤ 2 ^ 64 := Nat.pow_le_pow_right (by decide) v.type.bitWidth_le
  refine ⟨n, lt, eq, ?_⟩
  unfold bitPattern
  rw [word.number_eq, eq]
  show ((BitVec.ofInt 128 n).setWidth 64).toNat = n
  rw [Layout.setWidth_ofInt (by decide), BitVec.ofInt_natCast, BitVec.toNat_ofNat,
    Nat.mod_eq_of_lt (Nat.lt_of_lt_of_le lt le)]

theorem Holds.toInt_eq {v : Value} {t : DataType} {n : Nat} (holds : v.Holds t n)
    (unsigned : t.isSigned = false) (lt : n < 2 ^ t.bitWidth) : v.toInt = n :=
  holds.toInt.trans (DataType.wrap_of_lt unsigned lt)

/-- What is written to a result that was turned to a type of words. -/
theorem holds_store {r : Value} (wf : r.WellFormed) {t : DataType} (type : t.IsWord) (n : Int) :
    ((r.retype t).setNumber (.ofInt n)).Holds t n := by
  have word : (r.retype t).Word := ⟨wf.retype t, (type_retype r t).symm ▸ type⟩
  have holds := word.holds_setNumber n
  rwa [type_retype] at holds

end Value

/-! ## §5 The operators -/

namespace Operator

open Program

variable {target t : DataType} {digits n : Nat} {v x result : Value}

/-- A number of few enough digits is coded. -/
theorem run_toBcd (coded : target.codedDigits? = some digits) (wf : v.WellFormed)
    (unsigned : v.type.belongs .unsigned = true) (eq : v.toInt = n) (result : Value) :
    (toBcd target v).run result =
      if n < 10 ^ digits then
        .ok () ((result.retype target).setNumber (.ofInt (recode 10 16 digits n)))
      else .error .outOfRange result := by
  have room := (DataType.codes_of_codedDigits? coded).few
  obtain ⟨word, plain⟩ := DataType.isWord_of_unsigned unsigned
  obtain ⟨n', lt, eq', _⟩ := Value.Word.exists_natCast ⟨wf, word⟩ plain
  obtain rfl : n' = n := Int.ofNat_inj.mp (eq'.symm.trans eq)
  have wide : n' < 2 ^ 64 :=
    Nat.lt_of_lt_of_le lt (Nat.pow_le_pow_right (by decide) v.type.bitWidth_le)
  have checked : v.require [.unsigned] = .ok () :=
    wf.require_iff.mpr (List.any_eq_true.mpr ⟨.unsigned, List.mem_cons_self, unsigned⟩)
  have width : Fault.typeNotDefined.ifNone target.codedDigits? = .ok digits := congrArg _ coded
  have whole : Fault.outOfRange.ifNone (DecimalCode.word? v.toInt) = .ok (.ofNat 64 n') := by
    rw [eq, word?_natCast wide]
    rfl
  have digitsOf := encode?_eq (.ofNat 64 n') room
  rw [BitVec.toNat_ofNat, Nat.mod_eq_of_lt wide] at digitsOf
  unfold toBcd
  rw [run_check_of_ok checked, run_check_of_ok width, run_check_of_ok whole]
  split
  case isTrue few =>
    rw [if_pos few] at digitsOf
    have code : recode 10 16 digits n' < 2 ^ 64 :=
      Nat.lt_of_lt_of_le (shared_decimal digits n').recode_lt (sixteen_pow_le room)
    rw [run_check_of_ok (congrArg Fault.outOfRange.ifNone digitsOf), BitVec.toNat_ofNat,
      Nat.mod_eq_of_lt code]
    rfl
  case isFalse many =>
    rw [if_neg many] at digitsOf
    exact run_check_of_error (congrArg Fault.outOfRange.ifNone digitsOf) _ result

/-- Decimal digits are read. -/
theorem run_ofBcd (coded : x.type.codedDigits? = some digits) (int : t.belongs .int = true)
    (result : Value) :
    (Valid digits x.bitPattern → (ofBcd t x).run result =
        .ok () ((result.retype t).setNumber (.ofInt (recode 16 10 digits x.bitPattern.toNat)))) ∧
      (¬Valid digits x.bitPattern → (ofBcd t x).run result = .error .outOfRange result) := by
  have room := (DataType.codes_of_codedDigits? coded).few
  have width : Fault.notAllowedType.ifNone x.type.codedDigits? = .ok digits := congrArg _ coded
  have passed : Fault.typeNotDefined.when (!t.belongs .int) = .ok () := by
    rw [int]
    rfl
  unfold ofBcd
  rw [run_check_of_ok width, run_check_of_ok passed]
  constructor
  · intro valid
    obtain ⟨n, read, eq⟩ := decode?_eq_some room (shared_iff_valid.mpr valid)
    rw [run_check_of_ok (congrArg Fault.outOfRange.ifNone read), eq]
    rfl
  · intro other
    have unread := decode?_eq_none room (mt shared_iff_valid.mp other)
    exact run_check_of_error (congrArg Fault.outOfRange.ifNone unread) _ result

/-- The check agrees with the decoder. -/
theorem run_isBcd (coded : x.type.codedDigits? = some digits) (wf : x.WellFormed)
    (plain : result.WellFormed) :
    ∃ answer, (isBcd x).run result = .ok () answer ∧ answer.type = .bool ∧
      (answer.isTrue = true ↔ Valid digits x.bitPattern) := by
  have codes := DataType.codes_of_codedDigits? coded
  have checked : x.require [.bit] = .ok () :=
    wf.require_iff.mpr (List.any_eq_true.mpr ⟨.bit, List.mem_cons_self, codes.bit⟩)
  have count : (x.type.bitWidth + 3) / 4 = digits := by
    rw [codes.width]
    omega
  unfold isBcd
  rw [run_check_of_ok checked, count]
  refine ⟨_, rfl, Value.type_retype result .bool, ?_⟩
  show ((result.retype .bool).setBool (DecimalCode.decode? digits x.bitPattern).isSome).isTrue = true ↔ _
  rw [plain.flag_retype.isTrue_setBool, ← shared_iff_valid]
  constructor
  · intro answered
    by_contra other
    rw [decode?_eq_none codes.few other] at answered
    cases answered
  · intro shared
    obtain ⟨n, read, _⟩ := decode?_eq_some codes.few shared
    rw [read]
    rfl

/-- What was coded is decoded to the number that it was. -/
theorem ofBcd_of_coded {code : Value} (coded : target.codedDigits? = some digits)
    (lt : n < 10 ^ digits) (holds : code.Holds target (recode 10 16 digits n))
    (int : t.belongs .int = true) (result : Value) :
    (ofBcd t code).run result = .ok () ((result.retype t).setNumber (.ofInt n)) := by
  have codes := DataType.codes_of_codedDigits? coded
  have room : recode 10 16 digits n < 2 ^ target.bitWidth := by
    rw [codes.width, ← sixteen_pow]
    exact (shared_decimal digits n).recode_lt
  obtain ⟨bits, _, toInt, pattern⟩ := (holds.word codes.word).exists_natCast (holds.type ▸ codes.unsigned)
  obtain rfl : bits = recode 10 16 digits n :=
    Int.ofNat_inj.mp (toInt.symm.trans (holds.toInt_eq codes.unsigned room))
  have valid : Valid digits code.bitPattern := by
    rw [← shared_iff_valid, pattern]
    exact (shared_decimal digits n).back (by decide)
  rw [(run_ofBcd (holds.type ▸ coded) int result).1 valid, pattern, (shared_decimal digits n).recode_recode,
    Nat.mod_eq_of_lt lt]

/-- What was decoded is coded with the digits that it had. -/
theorem toBcd_of_decoded (coded : target.codedDigits? = some digits) (wf : x.WellFormed)
    (type : x.type = target) (valid : Valid digits x.bitPattern) (wf' : v.WellFormed)
    (unsigned : v.type.belongs .unsigned = true)
    (eq : v.toInt = recode 16 10 digits x.bitPattern.toNat) (plain : result.WellFormed) :
    ∃ back, (toBcd target v).run result = .ok () back ∧ back.type = target ∧
      back.payload = x.payload := by
  have codes := DataType.codes_of_codedDigits? coded
  have shared := shared_iff_valid.mpr valid
  have held : x.Word := ⟨wf, type ▸ codes.word⟩
  obtain ⟨bits, lt, toInt, pattern⟩ := held.exists_natCast (type ▸ codes.unsigned)
  have room : bits < 16 ^ digits := by
    rw [sixteen_pow, ← codes.width, ← type]
    exact lt
  have same : recode 10 16 digits (recode 16 10 digits x.bitPattern.toNat) = bits := by
    rw [shared.recode_recode, pattern, Nat.mod_eq_of_lt room]
  have there := run_toBcd coded wf' unsigned eq result
  rw [if_pos shared.recode_lt, same] at there
  have holds := Value.holds_store plain codes.word (bits : Int)
  have kept : x.Holds target bits := type ▸ toInt ▸ held.holds_self
  exact ⟨_, there, holds.type, holds.payload_eq codes.word kept⟩

/-! ## §6 There and back -/

/-- Decimal coding is one-to-one. A number is coded exactly if it has no more digits than there is
room for, and is decoded to what it was by every integer type with room for it. A bit string is found
to be a code exactly if all its digits are decimal, exactly then it is decoded, and coding gives it
back. -/
theorem decimalCode_bijective (coded : target.codedDigits? = some digits) :
    (∀ v result : Value, v.WellFormed → v.type.belongs .unsigned = true → result.WellFormed →
      (10 ^ digits ≤ v.toInt → (toBcd target v).run result = .error .outOfRange result) ∧
      (v.toInt < 10 ^ digits → ∃ code, (toBcd target v).run result = .ok () code ∧ code.type = target ∧
        ∀ (t : DataType) (result' : Value), t.belongs .int = true → t.wrap v.toInt = v.toInt →
          result'.WellFormed → ∃ back, (ofBcd t code).run result' = .ok () back ∧ back.type = t ∧
            back.toInt = v.toInt)) ∧
    ∀ x result : Value, x.WellFormed → x.type = target → result.WellFormed →
      (∃ answer, (isBcd x).run result = .ok () answer ∧ answer.type = .bool ∧
        (answer.isTrue = true ↔ Valid digits x.bitPattern)) ∧
      (∀ t : DataType, t.belongs .int = true →
        (Valid digits x.bitPattern → ∃ n, (ofBcd t x).run result = .ok () n ∧ n.type = t) ∧
        (¬Valid digits x.bitPattern → (ofBcd t x).run result = .error .outOfRange result)) ∧
      (Valid digits x.bitPattern → ∃ n, (ofBcd .ulint x).run result = .ok () n ∧
        ∀ result' : Value, result'.WellFormed → ∃ back, (toBcd target n).run result' = .ok () back ∧
          back.type = target ∧ back.payload = x.payload) := by
  constructor
  · intro v result wf unsigned plain
    obtain ⟨held, sign⟩ := DataType.isWord_of_unsigned unsigned
    obtain ⟨n, _, eq, _⟩ := Value.Word.exists_natCast ⟨wf, held⟩ sign
    have few : v.toInt < 10 ^ digits ↔ n < 10 ^ digits := by
      rw [eq]
      exact_mod_cast Iff.rfl
    have there := run_toBcd coded wf unsigned eq result
    refine ⟨fun many => ?_, fun lt => ?_⟩
    · rwa [if_neg (mt few.mpr (Int.not_lt.mpr many))] at there
    · have lt' := few.mp lt
      rw [if_pos lt'] at there
      have codes := DataType.codes_of_codedDigits? coded
      have holds := Value.holds_store plain codes.word (recode 10 16 digits n : Int)
      refine ⟨_, there, holds.type, fun t result' int room plain' => ?_⟩
      have back := Value.holds_store plain' (DataType.isWord_of_int int) (n : Int)
      exact ⟨_, ofBcd_of_coded coded lt' holds int result', back.type, by rw [back.toInt, ← eq, room]⟩
  · intro x result wf type plain
    have coded' : x.type.codedDigits? = some digits := type ▸ coded
    refine ⟨run_isBcd coded' wf plain, fun t int => ?_, fun valid => ?_⟩
    · obtain ⟨decodes, fails⟩ := run_ofBcd coded' int result
      exact ⟨fun valid => ⟨_, decodes valid, Value.type_retype result t⟩, fails⟩
    · have number := Value.holds_store plain (t := .ulint) rfl
        (recode 16 10 digits x.bitPattern.toNat : Int)
      have small : recode 16 10 digits x.bitPattern.toNat < 2 ^ 64 :=
        calc recode 16 10 digits x.bitPattern.toNat
          _ < 10 ^ digits := (shared_iff_valid.mpr valid).recode_lt
          _ ≤ 10 ^ 16 := Nat.pow_le_pow_right (by decide) (DataType.codes_of_codedDigits? coded).few
          _ ≤ 2 ^ 64 := by decide
      refine ⟨_, (run_ofBcd coded' rfl result).1 valid, fun result' plain' => ?_⟩
      exact toBcd_of_decoded coded wf type valid number.wf
        (congrArg (·.belongs .unsigned) number.type) (number.toInt_eq rfl small) plain'

/-- The number 1234 and the bits of its code, in four digits. -/
theorem decimalCode_bijective_word :
    (∃ code back, (toBcd .word (.ofNumber .uint (.ofInt 1234))).run .null = .ok () code ∧
      code.type = .word ∧ (ofBcd .int code).run .null = .ok () back ∧ back.toInt = 1234) ∧
    ∃ n back, (ofBcd .ulint (.ofNumber .word (.ofInt 0x1234))).run .null = .ok () n ∧
      (toBcd .word n).run .null = .ok () back ∧
      back.payload = (Value.ofNumber .word (.ofInt 0x1234)).payload := by
  have fresh := Value.wellFormed_zero .null
  have wf (t : DataType) (n : Int) := (Value.wellFormed_zero t).setNumber (.ofInt n)
  obtain ⟨numbers, codes⟩ := @decimalCode_bijective .word 4 rfl
  obtain ⟨code, coded, type, decodes⟩ := (numbers _ .null (wf .uint 1234) rfl fresh).2 (by decide)
  obtain ⟨back, decoded, _, eq⟩ := decodes .int .null rfl (by decide) fresh
  refine ⟨⟨code, back, coded, type, decoded, eq.trans (by decide)⟩, ?_⟩
  obtain ⟨n, read, again⟩ := (codes _ .null (wf .word 0x1234) rfl fresh).2.2 (by unfold Valid; decide)
  obtain ⟨bits, written, _, same⟩ := again .null fresh
  exact ⟨n, bits, read, written, same⟩

end Operator

end Plc
