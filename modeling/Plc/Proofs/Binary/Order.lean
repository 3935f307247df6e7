import Plc.Proofs.Binary.Whole

/-!
# Rounding keeps the order

Of two whole numbers, the one that is not greater has the rounding that is not greater. Two different
numbers may come to one value, if both have more bits than the format keeps; but rounding never turns
two numbers around, overflow to an infinity included, and no number but zero comes to zero.

Main statements:

* `Format.round_mono`: rounding is monotone.
* `Binary.rank_ofInt_eq`: where an integer of any size stands among the values of the format.
* `Format.place_mono`, `Format.place_eq_zero_iff`: such places are in the order of the integers.
-/

namespace Plc

/-! ## §1 Rounding natural numbers -/

theorem nearestEven_mono {num num' : Nat} (le : num ≤ num') (den : Nat) :
    nearestEven num den ≤ nearestEven num' den := by
  rcases Nat.lt_or_eq_of_le (Nat.div_le_div_right (c := den) le) with lt | same
  · -- Between different quotients there is room for rounding up.
    calc nearestEven num den
      _ ≤ num / den + 1 := nearestEven_le num den
      _ ≤ num' / den := lt
      _ ≤ nearestEven num' den := div_le_nearestEven num' den
  · -- With one quotient, the greater number has the greater rest.
    have whole := Nat.div_add_mod num den
    have whole' := Nat.div_add_mod num' den
    rw [same] at whole
    rcases nearestEven_cases num den with ⟨down, _⟩ | ⟨up, half⟩
    · rw [down, same]
      exact div_le_nearestEven num' den
    · rcases nearestEven_cases num' den with ⟨down', half'⟩ | ⟨up', _⟩
      · -- Up and down are a half both, and so one number.
        obtain rfl : num = num' := by omega
        exact Nat.le_refl _
      · rw [up, up', same]

namespace Format

variable {f : Format} {m n : Nat}

/-- Rounding does not go beyond a power of two. -/
theorem round_le_two_pow {k : Nat} (lt : n < 2 ^ k) : f.round n 1 ≤ 2 ^ k := by
  by_cases fits : f.excess n = 0
  case pos =>
    rw [round_of_aligned (aligned_of_excess_eq_zero fits)]
    exact Nat.le_of_lt lt
  case neg =>
    have bits : n.log2 < k := (Nat.log2_lt (ne_zero_of_excess fits)).mpr lt
    have places : f.excess n ≤ k := by
      have known := excess_add_precision fits
      omega
    -- The power of two is a whole number of the last places that are kept.
    have whole : (2 : Nat) ^ (k - f.excess n) * 2 ^ f.excess n = 2 ^ k := by
      rw [← Nat.pow_add, Nat.sub_add_cancel places]
    calc f.round n 1
      _ = nearestEven n (2 ^ f.excess n) * 2 ^ f.excess n := f.round_one n
      _ ≤ nearestEven (2 ^ (k - f.excess n) * 2 ^ f.excess n) (2 ^ f.excess n) * 2 ^ f.excess n :=
        Nat.mul_le_mul_right _ (nearestEven_mono (Nat.le_of_lt (whole ▸ lt)) _)
      _ = 2 ^ k := by rw [nearestEven_mul_self _ (Nat.two_pow_pos _), whole]

/-- A larger number never has the smaller rounding. -/
theorem round_mono (le : m ≤ n) : f.round m 1 ≤ f.round n 1 := by
  rcases Nat.eq_zero_or_pos m with rfl | pos
  · rw [round_of_aligned (aligned_of_le (Nat.zero_le _))]
    exact Nat.zero_le _
  have some : m ≠ 0 := Nat.ne_of_gt pos
  have some' : n ≠ 0 := Nat.ne_of_gt (Nat.lt_of_lt_of_le pos le)
  have logs : m.log2 ≤ n.log2 := (Nat.le_log2 some').mpr (Nat.le_trans (Nat.log2_self_le some) le)
  rcases Nat.lt_or_eq_of_le logs with fewer | same
  · -- There is a power of two between the numbers, and so there is between their roundings.
    calc f.round m 1
      _ ≤ 2 ^ (m.log2 + 1) := round_le_two_pow Nat.lt_log2_self
      _ ≤ f.round n 1 :=
        two_pow_le_round (Nat.le_trans (Nat.pow_le_pow_right (by decide) fewer) (Nat.log2_self_le some'))
  · -- Numbers of the same length lose the same places.
    have places : f.excess m = f.excess n := by
      unfold excess
      rw [same]
    rw [round_one, round_one, places]
    exact Nat.mul_le_mul_right _ (nearestEven_mono le _)

/-! ## §2 Places of integers -/

/-- The quanta of a natural number after rounding; beyond the format, those of an infinity. -/
def magnitude (f : Format) (n : Nat) : Nat := min (f.round (n * 2 ^ f.scale) 1) (2 ^ f.span)

/-- Where an integer stands among the values of the format. -/
def place (f : Format) (n : Int) : Int := Binary.signed (decide (n < 0)) (f.magnitude n.natAbs)

theorem magnitude_mono (le : m ≤ n) : f.magnitude m ≤ f.magnitude n := by
  have quanta : m * 2 ^ f.scale ≤ n * 2 ^ f.scale := Nat.mul_le_mul_right _ le
  have rounded := round_mono (f := f) quanta
  unfold magnitude
  omega

theorem magnitude_pos (pos : 0 < n) : 0 < f.magnitude n := by
  have quanta : 2 ^ 0 ≤ n * 2 ^ f.scale := Nat.mul_pos pos (Nat.two_pow_pos _)
  have rounded := two_pow_le_round (f := f) quanta
  have top := Nat.two_pow_pos f.span
  unfold magnitude
  omega

theorem magnitude_zero (f : Format) : f.magnitude 0 = 0 := by
  unfold magnitude
  rw [Nat.zero_mul, round_of_aligned (aligned_of_le (Nat.zero_le _)), Nat.zero_min]

theorem place_of_neg {n : Int} (negative : n < 0) : f.place n = -(f.magnitude n.natAbs : Int) := by
  simp [place, Binary.signed, negative]

theorem place_of_nonneg {n : Int} (nonneg : 0 ≤ n) : f.place n = f.magnitude n.natAbs := by
  simp [place, Binary.signed, Int.not_lt.mpr nonneg]

theorem place_zero (f : Format) : f.place 0 = 0 := by
  rw [place_of_nonneg (Int.le_refl 0)]
  exact congrArg Int.ofNat f.magnitude_zero

/-- Places are in the order of the integers: the magnitudes are, and below zero both orders turn around. -/
theorem place_mono {m n : Int} (le : m ≤ n) : f.place m ≤ f.place n := by
  by_cases negative : n < 0
  case pos =>
    have larger : f.magnitude n.natAbs ≤ f.magnitude m.natAbs := magnitude_mono (by omega)
    rw [place_of_neg negative, place_of_neg (by omega)]
    omega
  case neg =>
    rw [place_of_nonneg (Int.not_lt.mp negative)]
    by_cases below : m < 0
    case pos =>
      rw [place_of_neg below]
      omega
    case neg =>
      have larger : f.magnitude m.natAbs ≤ f.magnitude n.natAbs := magnitude_mono (by omega)
      rw [place_of_nonneg (Int.not_lt.mp below)]
      omega

/-- No other integer is rounded to zero. -/
theorem place_eq_zero_iff {n : Int} : f.place n = 0 ↔ n = 0 := by
  constructor
  · intro zero
    by_contra other
    have pos : 0 < f.magnitude n.natAbs := magnitude_pos (Int.natAbs_pos.mpr other)
    rcases Int.lt_or_le n 0 with negative | nonneg
    · rw [place_of_neg negative] at zero
      omega
    · rw [place_of_nonneg nonneg] at zero
      omega
  · rintro rfl
    exact f.place_zero

end Format

/-! ## §3 Integers as values -/

namespace Binary

variable {f : Format}

theorem rank_ofRatio (negative : Bool) (num den : Nat) :
    (ofRatio negative num den : Binary f).rank =
      some (signed negative (min (f.round num den) (2 ^ f.span))) := by
  unfold ofRatio
  split
  case isTrue fits =>
    rw [Nat.min_eq_left (Nat.le_of_lt fits)]
    rfl
  case isFalse beyond =>
    rw [Nat.min_eq_right (Nat.not_lt.mp beyond)]
    rfl

/-- Every integer has a place among the values, exact or not. -/
theorem rank_ofInt_eq (n : Int) : (ofInt n : Binary f).rank = some (f.place n) := by
  have quanta : (n * 2 ^ f.scale).natAbs = n.natAbs * 2 ^ f.scale := by
    rw [Int.natAbs_mul, Int.natAbs_pow]
    rfl
  have sign : n * 2 ^ f.scale < 0 ↔ n < 0 := by
    have positive : (0 : Int) < 2 ^ f.scale := Int.pow_pos (by decide)
    rw [Int.mul_neg_iff]
    omega
  unfold ofInt ofSignedRatio
  rw [rank_ofRatio, quanta, decide_eq_decide.mpr sign]
  rfl

theorem rank_eq_of_compare? {x y : Binary f} (equal : x.compare? y = some .eq) : x.rank = y.rank := by
  unfold compare? at equal
  split at equal
  case h_1 m n rank rank' =>
    have same : m = n := compare_eq_iff_eq.mp (Option.some.inj equal)
    rw [rank, rank', same]
  case h_2 => cases equal

end Binary

end Plc
