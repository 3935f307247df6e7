import Mathlib.Data.List.DropRight
import Plc.Proofs.Binary.Whole

/-!
# Decimal text of finite values reads back

A finite value has an exact decimal expansion, and its text is the first cut of it, from the coarsest on,
that reads back. So what is searched for is always found, and only two more things have to be seen: that
writing a decimal positionally does not change its number, and that reading does not settle any of the
exponents that occur here without computing.

Whole values are found without a point in their text, and all other ones have one: a whole number that
rounds to a value rounds to a whole value.

Main statements:

* `Decimal.positional_cases`: the two forms of positional text.
* `Binary.ofDecimal_eq`, `Binary.ofDecimal_of_same`: reading depends on the number alone.
* `Binary.ofDecimal_cutDigits`: whatever the search returns reads back.
* `Binary.toChars_whole`, `Binary.toChars_fraction`: the text of whole and of other values.
-/

namespace Plc

/-! ## §1 Digits after the point -/

namespace Decimal

/-- A text without the zeros at its end, and the zeros. -/
theorem exists_zeros (cs : List Char) :
    ∃ z, cs = (cs.reverse.dropWhile (· = '0')).reverse ++ List.replicate z '0' := by
  have zeros : cs.rtakeWhile (· = '0') = List.replicate (cs.rtakeWhile (· = '0')).length '0' :=
    List.eq_replicate_iff.mpr ⟨rfl, fun c mem => by simpa using List.mem_rtakeWhile_imp mem⟩
  refine ⟨(cs.rtakeWhile (· = '0')).length, ?_⟩
  rw [← zeros]
  exact List.rdropWhile_append_rtakeWhile.symm

/-- The digits after the point are those of the rest, up to zeros at the end. -/
theorem fractionDigits_spec {places : Nat} (pos : 0 < places) (n : Nat) :
    (∀ c ∈ fractionDigits places n, c.isDigit = true) ∧
      ∃ z, (fractionDigits places n).length + z = places ∧
        Nat.ofDigitChars 10 (fractionDigits places n) 0 * 10 ^ z = n % 10 ^ places := by
  have short : (Nat.toDigits 10 (n % 10 ^ places)).length ≤ places :=
    (Nat.length_toDigits_le_iff (by decide) pos).mpr (Nat.mod_lt _ (Nat.pow_pos (by decide)))
  let padded := List.replicate (places - (Nat.toDigits 10 (n % 10 ^ places)).length) '0' ++
    Nat.toDigits 10 (n % 10 ^ places)
  obtain ⟨z, cut⟩ := exists_zeros padded
  have kept : padded = fractionDigits places n ++ List.replicate z '0' := cut
  have value : Nat.ofDigitChars 10 padded 0 = n % 10 ^ places := by
    rw [Nat.ofDigitChars_append, Nat.ofDigitChars_replicate_zero, Nat.mul_zero,
      Nat.ofDigitChars_ten_toDigits]
  refine ⟨fun c mem => ?_, z, ?_, ?_⟩
  · have inside : c ∈ padded := kept ▸ List.mem_append_left _ mem
    rcases List.mem_append.mp inside with zero | digit
    · rw [List.eq_of_mem_replicate zero]
      decide
    · exact Numeral.isDigit_toDigits _ c digit
  · have length : padded.length = places := by
      rw [List.length_append, List.length_replicate]
      omega
    rw [kept, List.length_append, List.length_replicate] at length
    exact length
  · rw [← value, kept, Nat.ofDigitChars_append, Nat.ofDigitChars_replicate_zero, Nat.mul_comm]

/-! ## §2 Positional text -/

/-- The two decimals are the same number. -/
def Same (d d' : Decimal) : Prop :=
  d.significand * 10 ^ d.exponent.toNat * 10 ^ (-d'.exponent).toNat =
    d'.significand * 10 ^ d'.exponent.toNat * 10 ^ (-d.exponent).toNat

section

variable {significand e : Nat}

theorem positional_of_nil (none : fractionDigits (e + 1) significand = []) :
    positional ⟨significand, .negSucc e⟩ = Nat.toDigits 10 (significand / 10 ^ (e + 1)) := by
  simp only [positional, none]

theorem positional_of_ne_nil (some : fractionDigits (e + 1) significand ≠ []) :
    positional ⟨significand, .negSucc e⟩ =
      Nat.toDigits 10 (significand / 10 ^ (e + 1)) ++ '.' :: fractionDigits (e + 1) significand := by
  unfold positional
  dsimp only
  split
  case h_1 none => exact absurd none some
  case h_2 => rfl

end

/-- Positional text has no point, or one with digits on both sides, and is the same number. -/
theorem positional_cases (d : Decimal) :
    (∃ n, d.positional = Nat.toDigits 10 n ∧ d.Same ⟨n, 0⟩) ∨
      ∃ whole fraction, d.positional = Nat.toDigits 10 whole ++ '.' :: fraction ∧ fraction ≠ [] ∧
        (∀ c ∈ fraction, c.isDigit = true) ∧ d.exponent ≤ -(fraction.length : Int) ∧
        d.Same ⟨Nat.ofDigitChars 10 (Nat.toDigits 10 whole ++ fraction) 0, -fraction.length⟩ := by
  obtain ⟨significand, exponent⟩ := d
  cases exponent with
  | ofNat e =>
    refine Or.inl ⟨significand * 10 ^ e, rfl, ?_⟩
    simp [Same]
  | negSucc e =>
    obtain ⟨digits, z, length, value⟩ := fractionDigits_spec (Nat.succ_pos e) significand
    have value : (significand / 10 ^ (e + 1) * 10 ^ (fractionDigits (e + 1) significand).length +
        Nat.ofDigitChars 10 (fractionDigits (e + 1) significand) 0) * 10 ^ z = significand := by
      rw [Nat.add_mul, Nat.mul_assoc, ← Nat.pow_add, length, value, Nat.div_add_mod']
    by_cases none : fractionDigits (e + 1) significand = []
    case pos =>
      -- All of the places are zeros.
      refine Or.inl ⟨_, positional_of_nil none, ?_⟩
      rw [none] at length value
      obtain rfl : z = e + 1 := (Nat.zero_add z).symm.trans length
      have same : significand / 10 ^ (e + 1) * 10 ^ (e + 1) = significand := by simpa using value
      simp [Same, same]
    case neg =>
      have text := positional_of_ne_nil none
      generalize significand / 10 ^ (e + 1) = whole at *
      generalize fractionDigits (e + 1) significand = fraction at *
      refine Or.inr ⟨whole, fraction, text, none, digits, ?_, ?_⟩
      · show Int.negSucc e ≤ -(fraction.length : Int)
        omega
      · have all : Nat.ofDigitChars 10 (Nat.toDigits 10 whole ++ fraction) 0 * 10 ^ z = significand := by
          rw [Nat.ofDigitChars_append, Nat.ofDigitChars_ten_toDigits, Nat.ofDigitChars_eq_ofDigitChars_zero,
            Nat.mul_comm _ whole, value]
        have places : e + 1 = z + fraction.length := by omega
        simp only [Same, Int.neg_neg, Int.toNat_natCast, Int.neg_negSucc, Int.toNat_negSucc,
          Int.toNat_neg_natCast, Nat.pow_zero, Nat.mul_one]
        rw [places, Nat.pow_add, ← Nat.mul_assoc, all]

end Decimal

/-! ## §3 Reading -/

namespace Binary

variable {f : Format} {units : Nat} {fits : f.Fits units} {d d' : Decimal}

/-- The sign has no part in rounding. -/
theorem ofRatio_of_false {num den : Nat} (read : ofRatio false num den = finite false units fits)
    (negative : Bool) : ofRatio negative num den = finite negative units fits := by
  unfold ofRatio at read ⊢
  split at read
  case isTrue within =>
    rw [dif_pos within]
    injection read with _ same
    simp only [same]
  case isFalse => cases read

/-- The exponents that are settled without computing. -/
structure Within (f : Format) (d : Decimal) : Prop where
  some : d.significand ≠ 0
  least : -(f.scale : Int) ≤ d.exponent
  most : d.exponent ≤ f.span

theorem ofDecimal_eq (within : Within f d) (negative : Bool) :
    (ofDecimal negative d : Binary f) = ofRatio negative
      (d.significand * 10 ^ d.exponent.toNat * 2 ^ f.scale) (10 ^ (-d.exponent).toNat) := by
  obtain ⟨significand, exponent⟩ := d
  obtain ⟨some, least, most⟩ := within
  have small : ¬exponent < -((significand.log2 + f.scale + 2 : Nat) : Int) := by
    have least : -(f.scale : Int) ≤ exponent := least
    omega
  unfold ofDecimal
  rw [if_neg some, if_neg (Int.not_lt.mpr most), if_neg small]
  cases exponent with
  | ofNat e => simp
  | negSucc e => simp

/-- What is read does not depend on how the number is written. -/
theorem ofDecimal_of_same (within : Within f d) (within' : Within f d') (same : d.Same d')
    (negative : Bool) : (ofDecimal negative d : Binary f) = ofDecimal negative d' := by
  rw [ofDecimal_eq within, ofDecimal_eq within']
  refine ofRatio_congr (f.round_congr (Nat.pow_pos (by decide)) (Nat.pow_pos (by decide)) ?_) negative
  rw [Nat.mul_right_comm, same, Nat.mul_right_comm]

theorem Within.of_same (within : Within f d) (same : d.Same d') (least : -(f.scale : Int) ≤ d'.exponent)
    (most : d'.exponent ≤ f.span) : Within f d' := by
  refine ⟨fun zero => ?_, least, most⟩
  have nothing : d.significand * 10 ^ d.exponent.toNat * 10 ^ (-d'.exponent).toNat = 0 := by
    rw [same, zero, Nat.zero_mul, Nat.zero_mul]
  simp [within.some] at nothing

/-- A decimal that reads as a finite value other than zero is not so large that it is settled at once. -/
theorem within_of_read (read : ofDecimal false d = finite false units fits) (some : units ≠ 0)
    (least : -(f.scale : Int) ≤ d.exponent) : Within f d := by
  unfold ofDecimal at read
  split at read
  case isTrue =>
    injection read with _ zero
    exact absurd zero.symm some
  case isFalse nonzero =>
    split at read
    case isTrue => cases read
    case isFalse inside => exact ⟨nonzero, least, Int.not_lt.mp inside⟩

theorem round_of_ofRatio {num den : Nat} (read : ofRatio false num den = finite false units fits) :
    f.round num den = units := by
  unfold ofRatio at read
  split at read
  case isTrue => injection read
  case isFalse => cases read

/-- A whole number that reads as the value rounds to it. -/
theorem round_of_read {n : Nat} (read : ofDecimal false ⟨n, 0⟩ = finite false units fits)
    (some : units ≠ 0) : f.round n 1 * 2 ^ f.scale = units := by
  have exact_read := ofDecimal_eq (within_of_read read some (by simp)) false
  rw [read] at exact_read
  rw [← f.round_two_pow]
  simpa using round_of_ofRatio exact_read.symm

/-! ## §4 The search -/

/-- Whatever the search returns reads back, for the last candidate does. -/
theorem ofDecimal_cutDigits {x : Binary f} {expansion : Nat} {exponent : Int}
    (last : ofDecimal false ⟨expansion, exponent⟩ = x) (drop : Nat) :
    ofDecimal false (cutDigits x expansion exponent drop) = x ∧
      exponent ≤ (cutDigits x expansion exponent drop).exponent := by
  -- On the digits that are still dropped: a candidate is taken for reading back, and the last one
  -- drops no digit.
  induction drop with
  | zero => exact ⟨last, Int.le_refl exponent⟩
  | succ drop ih =>
    unfold cutDigits
    dsimp only
    split
    case h_1 c found =>
      exact ⟨by simpa using List.find?_some found, Int.le_add_of_nonneg_right (Int.natCast_nonneg _)⟩
    case h_2 => exact ih

/-- The search goes no further than to a cut that loses nothing. -/
theorem exponent_cutDigits {x : Binary f} {c places drop : Nat} {exponent : Int}
    (reads : ofDecimal false ⟨c, exponent + places⟩ = x) (le : places ≤ drop) :
    exponent + places ≤ (cutDigits x (c * 10 ^ places) exponent drop).exponent := by
  -- The search comes down from more dropped digits. At this many it cuts off zeros only, so that the
  -- number itself is a candidate.
  induction drop, le using Nat.le_induction with
  | base =>
    cases places with
    | zero => exact Int.le_of_eq (Int.add_zero exponent)
    | succ places =>
      have cut : c * 10 ^ (places + 1) / 10 ^ (places + 1) = c :=
        Nat.mul_div_cancel c (Nat.pow_pos (by decide))
      unfold cutDigits
      dsimp only
      split
      case h_1 => exact Int.le_refl _
      case h_2 none =>
        refine absurd (decide_eq_true reads) (List.find?_eq_none.mp none c ?_)
        rw [cut]
        split <;> simp
  | succ drop le ih =>
    unfold cutDigits
    dsimp only
    split
    case h_1 =>
      show exponent + places ≤ exponent + (drop + 1 : Nat)
      omega
    case h_2 => exact ih

/-! ## §5 The shortest decimal -/

/-- The whole expansion reads back. -/
theorem ofDecimal_expansion (fits : f.Fits units) (some : units ≠ 0) :
    ofDecimal false ⟨units * 5 ^ f.scale, -f.scale⟩ = finite false units fits := by
  have nonzero : units * 5 ^ f.scale ≠ 0 := Nat.mul_ne_zero some (Nat.ne_of_gt (Nat.pow_pos (by decide)))
  have within : Within f ⟨units * 5 ^ f.scale, -f.scale⟩ := by
    refine ⟨nonzero, Int.le_refl _, ?_⟩
    show -(f.scale : Int) ≤ f.span
    omega
  have quanta : units * 5 ^ f.scale * 10 ^ (-(f.scale : Int)).toNat * 2 ^ f.scale * 1 =
      units * 10 ^ (-(-(f.scale : Int))).toNat := by
    rw [Int.neg_neg, Int.toNat_natCast, Int.toNat_neg_natCast, Nat.pow_zero, Nat.mul_one, Nat.mul_one,
      Nat.mul_assoc, ← Nat.mul_pow]
  rw [ofDecimal_eq within, ← ofRatio_units fits]
  exact ofRatio_congr (f.round_congr (Nat.pow_pos (by decide)) Nat.one_pos quanta) false

theorem ofDecimal_shortest (fits : f.Fits units) (some : units ≠ 0) :
    ofDecimal false (shortest units fits) = finite false units fits ∧
      Within f (shortest units fits) := by
  obtain ⟨read, least⟩ := ofDecimal_cutDigits (ofDecimal_expansion fits some)
    ((Nat.toDigits 10 (units * 5 ^ f.scale)).length - 1)
  exact ⟨read, within_of_read read some least⟩

/-- A whole value is found before the point is passed. -/
theorem exponent_shortest (fits : f.Fits units) (some : units ≠ 0) (whole : 2 ^ f.scale ∣ units) :
    0 ≤ (shortest units fits).exponent := by
  obtain ⟨n, eq⟩ := whole
  have pos : 0 < n := Nat.pos_of_ne_zero fun zero => some (by rw [eq, zero, Nat.mul_zero])
  have expansion : units * 5 ^ f.scale = n * 10 ^ f.scale := by
    rw [eq, Nat.mul_comm _ n, Nat.mul_assoc, ← Nat.mul_pow]
  have point : -(f.scale : Int) + f.scale = 0 := by omega
  have reads : ofDecimal false ⟨n, -(f.scale : Int) + f.scale⟩ = finite false units fits := by
    rw [point, ofDecimal_eq ⟨Nat.ne_of_gt pos, by simp, by simp⟩, ← ofRatio_units fits]
    simp [eq, Nat.mul_comm]
  -- The expansion has a zero for every place after the point, and a digit before them.
  have long : f.scale ≤ (Nat.toDigits 10 (units * 5 ^ f.scale)).length - 1 := by
    by_contra short
    have places : 0 < f.scale := by omega
    have few : units * 5 ^ f.scale < 10 ^ f.scale :=
      (Nat.length_toDigits_le_iff (by decide) places).mp (by omega)
    rw [expansion] at few
    exact Nat.not_lt.mpr (Nat.le_mul_of_pos_left _ pos) few
  have found := exponent_cutDigits reads long
  unfold shortest
  rw [expansion] at found ⊢
  exact point ▸ found

/-! ## §6 Text -/

theorem positional_whole (fits : f.Fits units) (some : units ≠ 0) (whole : 2 ^ f.scale ∣ units) :
    ∃ n, (shortest units fits).positional = Nat.toDigits 10 n ∧ f.round n 1 * 2 ^ f.scale = units := by
  obtain ⟨read, within⟩ := ofDecimal_shortest fits some
  have before := exponent_shortest fits some whole
  generalize shortest units fits = d at *
  obtain ⟨significand, exponent⟩ := d
  obtain ⟨e, rfl⟩ := Int.eq_ofNat_of_zero_le before
  refine ⟨significand * 10 ^ e, rfl, ?_⟩
  rw [ofDecimal_eq within] at read
  rw [← f.round_two_pow]
  simpa using round_of_ofRatio read

theorem positional_fraction (fits : f.Fits units) (some : units ≠ 0) (fractional : ¬2 ^ f.scale ∣ units) :
    ∃ whole fraction, (shortest units fits).positional = Nat.toDigits 10 whole ++ '.' :: fraction ∧
      (∀ c ∈ fraction, c.isDigit = true) ∧ ∀ negative, ofDecimal negative
        ⟨Nat.ofDigitChars 10 (Nat.toDigits 10 whole ++ fraction) 0, -fraction.length⟩ =
          finite negative units fits := by
  obtain ⟨read, within⟩ := ofDecimal_shortest fits some
  rcases (shortest units fits).positional_cases with
    ⟨n, _, same⟩ | ⟨whole, fraction, text, _, digits, bound, same⟩
  case inl =>
    -- A whole number rounds to a whole value.
    have within' := within.of_same same (by simp) (by simp)
    rw [ofDecimal_of_same within within' same] at read
    exact absurd ⟨_, (round_of_read read some).symm.trans (Nat.mul_comm _ _)⟩ fractional
  case inr =>
    have within' := within.of_same same (Int.le_trans within.least bound) (by simp)
    refine ⟨whole, fraction, text, digits, fun negative => ?_⟩
    rw [ofDecimal_of_same within within' same, ofDecimal_eq within'] at read
    rw [ofDecimal_eq within']
    exact ofRatio_of_false read negative

/-- The sign in front of a text. -/
def sign (negative : Bool) : List Char := if negative then ['-'] else []

theorem toChars_finite (negative : Bool) (fits : f.Fits units) :
    (finite negative units fits).toChars =
      sign negative ++ if units = 0 then ['0'] else (shortest units fits).positional := rfl

theorem splitSign_sign (negative : Bool) {cs : List Char}
    (digit : ∀ c, cs.head? = some c → c.isDigit = true) :
    Numeral.splitSign (sign negative ++ cs) = (negative, cs) := by
  cases negative with
  | true => rfl
  | false => exact Numeral.splitSign_of_head digit

theorem decimal_point {whole fraction : List Char} (digits : ∀ c ∈ whole, c.isDigit = true)
    (some : whole ≠ []) (digits' : ∀ c ∈ fraction, c.isDigit = true) :
    Decimal.ofChars? (whole ++ '.' :: fraction) =
      Option.some ⟨Nat.ofDigitChars 10 (whole ++ fraction) 0, -fraction.length⟩ := by
  have point : ∀ c, ('.' :: fraction).head? = Option.some c → c.isDigit = false := by
    intro c first
    obtain rfl : '.' = c := Option.some.inj first
    decide
  obtain ⟨before, after⟩ := Text.span_append digits point
  obtain ⟨all, none⟩ := Text.span_self digits'
  have parts : Decimal.splitPoint (whole ++ '.' :: fraction) = (whole, fraction, []) := by
    unfold Decimal.splitPoint
    simp only [before, after, all, none]
  have present : (whole.isEmpty && fraction.isEmpty) = false := by
    simp [some]
  unfold Decimal.ofChars?
  simp only [parts, present]
  simp [Decimal.trailingExponent?]

/-- The text of a whole value is that of a whole number which rounds to it. -/
theorem toChars_whole (negative : Bool) (fits : f.Fits units) (whole : 2 ^ f.scale ∣ units) :
    ∃ n, (finite negative units fits).toChars = sign negative ++ Nat.toDigits 10 n ∧
      f.round n 1 * 2 ^ f.scale = units := by
  by_cases zero : units = 0
  case pos =>
    refine ⟨0, ?_, ?_⟩
    · rw [toChars_finite, if_pos zero, Nat.toDigits_zero]
    · rw [Format.round_of_aligned f.fits_zero.1, Nat.zero_mul, zero]
  case neg =>
    obtain ⟨n, text, rounds⟩ := positional_whole fits zero whole
    refine ⟨n, ?_, rounds⟩
    rw [toChars_finite, if_neg zero, text]

/-- The text of any other value has a point and reads back. -/
theorem toChars_fraction (negative : Bool) (fits : f.Fits units) (fractional : ¬2 ^ f.scale ∣ units) :
    (∀ c ∈ (finite negative units fits).toChars, c.isDigit = true ∨ c ∈ ['-', '.']) ∧
      '.' ∈ (finite negative units fits).toChars ∧
        ofChars? (finite negative units fits).toChars = some (finite negative units fits) := by
  have nonzero : units ≠ 0 := fun zero => fractional (zero ▸ Nat.dvd_zero _)
  obtain ⟨whole, fraction, text, digits, reads⟩ := positional_fraction fits nonzero fractional
  have written : (finite negative units fits).toChars =
      sign negative ++ (Nat.toDigits 10 whole ++ '.' :: fraction) := by
    rw [toChars_finite, if_neg nonzero, text]
  have front := Numeral.isDigit_toDigits whole
  have head : ∀ c, (Nat.toDigits 10 whole ++ '.' :: fraction).head? = some c → c.isDigit = true := by
    intro c first
    rw [List.head?_append_of_ne_nil _ Nat.toDigits_ne_nil] at first
    exact front c (List.mem_of_head? first)
  rw [written]
  refine ⟨fun c mem => ?_, by simp, ?_⟩
  · rcases List.mem_append.mp mem with minus | mem
    · cases negative <;> simp_all [sign]
    · rcases List.mem_append.mp mem with digit | mem
      · exact Or.inl (front c digit)
      · rcases List.mem_cons.mp mem with rfl | digit
        · exact Or.inr (by decide)
        · exact Or.inl (digits c digit)
  · unfold ofChars?
    simp only [splitSign_sign negative head, decimal_point front Nat.toDigits_ne_nil digits]
    exact congrArg some (reads negative)

end Binary

end Plc
