import Plc.Proofs.Binary.Whole

/-!
# Quotients in binary floating point

A quotient is rounded like a whole number, by one part in `2 ^ precision` at most, unless it is so small
that the format has fewer bits for it. A whole number that is divided and then multiplied by the divisor
again goes through three roundings: its own, that of the quotient and that of the product. It comes back
exactly where the quotient has few bits, and otherwise as a neighbour, which may be no whole number.

Main statements:

* `Format.Near.one_quotient`: how far the rounding of a quotient goes.
* `Format.near_throughQuotient`, `Format.near_throughQuotient_of_aligned`: the way there and back.
* `Format.throughQuotient_of_dvd`: where nothing is lost.
* `Binary.div_mul_ofInt`: the same told of values.
-/

namespace Plc

namespace Format

variable {f : Format} {steps n k num den : Nat}

/-! ## §1 One quotient -/

/-- Away from the smallest values, a quotient keeps as many bits as a whole number. -/
theorem two_pow_excess_div_le (normal : 2 ^ (f.precision - 1) ≤ num / den) :
    den * 2 ^ f.excess (num / den) * 2 ^ f.precision ≤ 2 * num := by
  have last : 2 ^ f.excess (num / den) * 2 ^ f.precision ≤ 2 * (num / den) := by
    by_cases fits : f.excess (num / den) = 0
    case pos =>
      have half : (2 : Nat) ^ f.precision = 2 * 2 ^ (f.precision - 1) := by
        rw [← Nat.pow_succ', Nat.succ_eq_add_one, Nat.sub_add_cancel f.precision_pos]
      rw [fits, half]
      omega
    case neg => exact two_pow_excess_le fits
  calc den * 2 ^ f.excess (num / den) * 2 ^ f.precision
    _ = den * (2 ^ f.excess (num / den) * 2 ^ f.precision) := Nat.mul_assoc ..
    _ ≤ den * (2 * (num / den)) := Nat.mul_le_mul_left den last
    _ = 2 * (den * (num / den)) := Nat.mul_left_comm ..
    _ ≤ 2 * num := Nat.mul_le_mul_left 2 (Nat.mul_div_le num den)

/-- A quotient, seen from its dividend. -/
theorem Near.one_quotient (pos : 0 < den) (normal : 2 ^ (f.precision - 1) ≤ num / den) :
    f.Near 1 num (f.round num den * den) := by
  have last := two_pow_excess_div_le normal
  -- Multiplied by the divisor, the quotient is the dividend rounded to multiples of one number.
  have whole : f.round num den * den =
      nearestEven num (den * 2 ^ f.excess (num / den)) * (den * 2 ^ f.excess (num / den)) := by
    unfold Format.round
    dsimp only
    rw [Nat.mul_assoc, Nat.mul_comm den]
  obtain ⟨upper, lower⟩ :=
    nearestEven_near num (Nat.mul_pos pos (Nat.two_pow_pos (f.excess (num / den))))
  rw [← whole] at upper lower
  -- That number is small beside the dividend, by `last`, and the error is half of it.
  have upper := Nat.mul_le_mul_right (2 ^ f.precision) upper
  have lower := Nat.mul_le_mul_right (2 ^ f.precision) lower
  simp only [Nat.add_mul, Nat.mul_assoc] at upper lower last
  constructor
  · rw [Nat.pow_one, Nat.pow_one, Nat.mul_sub_one, Nat.mul_assoc]
    omega
  · rw [Nat.pow_one, Nat.pow_one, Nat.mul_add_one, Nat.mul_assoc]
    omega

/-- Each rounding at most doubles a number. -/
theorem Near.le (near : f.Near steps n num) : num ≤ n * 2 ^ steps := by
  have pos := Nat.two_pow_pos f.precision
  have double : (2 : Nat) ^ f.precision + 1 ≤ 2 * 2 ^ f.precision := by omega
  have positive : 0 < ((2 : Nat) ^ f.precision) ^ steps := Nat.pow_pos pos
  apply Nat.le_of_mul_le_mul_right _ positive
  calc num * (2 ^ f.precision) ^ steps
    _ ≤ n * (2 ^ f.precision + 1) ^ steps := near.upper
    _ ≤ n * (2 * 2 ^ f.precision) ^ steps := Nat.mul_le_mul_left n (Nat.pow_le_pow_left double steps)
    _ = n * 2 ^ steps * (2 ^ f.precision) ^ steps := by rw [Nat.mul_pow, Nat.mul_assoc]

/-- The whole part of a number that is near to a whole one. -/
theorem Near.div {unit : Nat} (pos : 0 < unit) (near : f.Near steps (n * unit) num) :
    num / unit * (2 ^ f.precision) ^ steps ≤ n * (2 ^ f.precision + 1) ^ steps ∧
      n * (2 ^ f.precision - 1) ^ steps < (num / unit + 1) * (2 ^ f.precision) ^ steps := by
  have positive : 0 < ((2 : Nat) ^ f.precision) ^ steps := Nat.pow_pos (Nat.two_pow_pos f.precision)
  constructor
  · apply Nat.le_of_mul_le_mul_right _ pos
    calc num / unit * (2 ^ f.precision) ^ steps * unit
      _ = num / unit * unit * (2 ^ f.precision) ^ steps := Nat.mul_right_comm ..
      _ ≤ num * (2 ^ f.precision) ^ steps := Nat.mul_le_mul_right _ (Nat.div_mul_le_self num unit)
      _ ≤ n * unit * (2 ^ f.precision + 1) ^ steps := near.upper
      _ = n * (2 ^ f.precision + 1) ^ steps * unit := Nat.mul_right_comm ..
  · apply Nat.lt_of_mul_lt_mul_right (a := unit)
    calc n * (2 ^ f.precision - 1) ^ steps * unit
      _ = n * unit * (2 ^ f.precision - 1) ^ steps := Nat.mul_right_comm ..
      _ ≤ num * (2 ^ f.precision) ^ steps := near.lower
      _ < (num / unit + 1) * unit * (2 ^ f.precision) ^ steps :=
        Nat.mul_lt_mul_of_pos_right (Nat.lt_mul_of_div_lt (Nat.lt_succ_self _) pos) positive
      _ = (num / unit + 1) * (2 ^ f.precision) ^ steps * unit := Nat.mul_right_comm ..

/-! ## §2 There and back -/

/-- What becomes of the number `n` where it is divided by `k` and multiplied by it again, in quanta. -/
def throughQuotient (f : Format) (n k : Nat) : Nat :=
  f.round (f.round (f.round n 1 * 2 ^ f.scale) k * k) 1

/-- A quotient by a divisor that is not too large keeps all of its bits. -/
theorem normal_quotient (some : 0 < n) (pos : 0 < k) (small : k * 2 ^ (f.precision - 1) ≤ 2 ^ f.scale) :
    2 ^ (f.precision - 1) ≤ n * 2 ^ f.scale / k := by
  apply (Nat.le_div_iff_mul_le pos).mpr
  rw [Nat.mul_comm]
  exact Nat.le_trans small (Nat.le_mul_of_pos_left _ some)

/-- A divisor of so many bits is not too large. -/
theorem mul_two_pow_le {bits : Nat} (small : k ≤ 2 ^ bits) (room : bits + (f.precision - 1) ≤ f.scale) :
    k * 2 ^ (f.precision - 1) ≤ 2 ^ f.scale :=
  calc k * 2 ^ (f.precision - 1)
    _ ≤ 2 ^ bits * 2 ^ (f.precision - 1) := Nat.mul_le_mul_right _ small
    _ = 2 ^ (bits + (f.precision - 1)) := (Nat.pow_add ..).symm
    _ ≤ 2 ^ f.scale := Nat.pow_le_pow_right (by decide) room

theorem round_pos (some : 0 < n) : 0 < f.round n 1 := two_pow_le_round (k := 0) some

theorem near_throughQuotient (some : 0 < n) (pos : 0 < k)
    (small : k * 2 ^ (f.precision - 1) ≤ 2 ^ f.scale) :
    f.Near 3 (n * 2 ^ f.scale) (f.throughQuotient n k) := by
  have read := (Near.one_round f n).mul_right (2 ^ f.scale)
  have divided := Near.one_quotient pos (normal_quotient (f.round_pos some) pos small)
  exact (read.trans divided).round

theorem near_throughQuotient_of_aligned (aligned : f.Aligned n) (some : 0 < n) (pos : 0 < k)
    (small : k * 2 ^ (f.precision - 1) ≤ 2 ^ f.scale) :
    f.Near 2 (n * 2 ^ f.scale) (f.throughQuotient n k) := by
  unfold throughQuotient
  rw [round_of_aligned aligned]
  exact (Near.one_quotient pos (normal_quotient some pos small)).round

/-- A divisor of which the number has all but some factors of two is divided out exactly. -/
theorem throughQuotient_of_dvd {c odd places : Nat} (aligned : f.Aligned (c * odd))
    (few : c ≤ 2 ^ f.precision) (pos : 0 < odd) (le : places ≤ f.scale) :
    f.throughQuotient (c * odd) (odd * 2 ^ places) = c * odd * 2 ^ f.scale := by
  have scale : (2 : Nat) ^ (f.scale - places) * 2 ^ places = 2 ^ f.scale := by
    rw [← Nat.pow_add, Nat.sub_add_cancel le]
  -- The quotient is `c` and a power of two, so that there is nothing to be rounded.
  have quotient : f.round (c * odd * 2 ^ f.scale) (odd * 2 ^ places) = c * 2 ^ (f.scale - places) := by
    have cancelled : c * odd * 2 ^ f.scale * 1 = c * 2 ^ (f.scale - places) * (odd * 2 ^ places) := by
      rw [← scale]
      ring
    rw [f.round_congr (Nat.mul_pos pos (Nat.two_pow_pos places)) Nat.one_pos cancelled, round_two_pow,
      round_of_aligned (aligned_of_le few)]
  have product : c * 2 ^ (f.scale - places) * (odd * 2 ^ places) = c * odd * 2 ^ f.scale := by
    rw [← scale]
    ring
  unfold throughQuotient
  rw [round_of_aligned aligned, quotient, product, round_two_pow, round_of_aligned aligned]

end Format

/-! ## §3 Values -/

namespace Binary

variable {f : Format}

theorem ofInt_eq (n : Int) :
    (ofInt n : Binary f) = ofRatio (decide (n < 0)) (n.natAbs * 2 ^ f.scale) 1 := by
  have units : (n * 2 ^ f.scale).natAbs = n.natAbs * 2 ^ f.scale := by
    rw [Int.natAbs_mul, Int.natAbs_pow]
    rfl
  have sign : n * 2 ^ f.scale < 0 ↔ n < 0 :=
    ⟨fun below => Int.not_le.mp fun above =>
      absurd below (Int.not_lt.mpr (Int.mul_nonneg above (Int.pow_nonneg (by decide)))),
      fun below => Int.mul_neg_of_neg_of_pos below (Int.pow_pos (by decide))⟩
  unfold ofInt ofSignedRatio
  rw [units, decide_eq_decide.mpr sign]

theorem ofRatio_of_lt {num den : Nat} (negative : Bool) (within : f.round num den < 2 ^ f.span) :
    ∃ fits, (ofRatio negative num den : Binary f) = finite negative (f.round num den) fits :=
  ⟨⟨f.aligned_round num den, within⟩, dif_pos within⟩

theorem div_quanta {m k : Nat} (negative : Bool) (fits : f.Fits (m * 2 ^ f.scale))
    (fits' : f.Fits (k * 2 ^ f.scale)) (pos : 0 < k) :
    finite negative (m * 2 ^ f.scale) fits / finite false (k * 2 ^ f.scale) fits' =
      ofRatio negative (m * 2 ^ f.scale) k := by
  have some : k * 2 ^ f.scale ≠ 0 := Nat.ne_of_gt (Nat.mul_pos pos (Nat.two_pow_pos f.scale))
  show (if k * 2 ^ f.scale = 0 then _ else ofRatio (negative != false) _ _) = _
  rw [if_neg some, Bool.bne_false]
  exact ofRatio_congr (f.round_mul_right _ _ (Nat.two_pow_pos f.scale)) negative

theorem mul_quanta {q k : Nat} (negative : Bool) (fits : f.Fits q) (fits' : f.Fits (k * 2 ^ f.scale)) :
    finite negative q fits * finite false (k * 2 ^ f.scale) fits' = ofRatio negative (q * k) 1 := by
  show ofRatio (negative != false) (q * (k * 2 ^ f.scale)) (2 ^ f.scale) = _
  have cancel := f.round_mul_right (q * k) 1 (Nat.two_pow_pos f.scale)
  rw [Nat.one_mul, Nat.mul_assoc] at cancel
  rw [Bool.bne_false]
  exact ofRatio_congr cancel negative

/-- An integer divided and multiplied again, as long as it is nowhere near the infinities. -/
theorem div_mul_ofInt {n : Int} {k : Nat} (some : n ≠ 0) (pos : 0 < k) (fits : f.Fits (k * 2 ^ f.scale))
    (small : k * 2 ^ (f.precision - 1) ≤ 2 ^ f.scale)
    (room : n.natAbs * 2 ^ f.scale * 2 ^ 3 < 2 ^ f.span) :
    ∃ q fits' fits'', (ofInt n / ofInt k : Binary f) = finite (decide (n < 0)) q fits' ∧
      (ofInt n / ofInt k : Binary f) * ofInt k =
        finite (decide (n < 0)) (f.throughQuotient n.natAbs k) fits'' := by
  have some : 0 < n.natAbs := Int.natAbs_pos.mpr some
  -- Each of the three roundings at most doubles what it is given, and there is room for that.
  have read := f.round_two_pow n.natAbs f.scale
  have near := (Format.Near.one_round f n.natAbs).mul_right (2 ^ f.scale)
  have near' := near.trans (Format.Near.one_quotient pos (Format.normal_quotient (f.round_pos some) pos small))
  have within : f.round (n.natAbs * 2 ^ f.scale) 1 < 2 ^ f.span := by
    rw [read]
    exact Nat.lt_of_le_of_lt near.le (by omega)
  have within' : f.round (f.round n.natAbs 1 * 2 ^ f.scale) k < 2 ^ f.span :=
    Nat.lt_of_le_of_lt (Nat.le_mul_of_pos_right _ pos) (Nat.lt_of_le_of_lt near'.le (by omega))
  have within'' : f.throughQuotient n.natAbs k < 2 ^ f.span :=
    Nat.lt_of_le_of_lt (Format.near_throughQuotient some pos small).le room
  have divisor : (ofInt (k : Int) : Binary f) = finite false (k * 2 ^ f.scale) fits := by
    rw [ofInt_natCast, ofRatio_units fits]
  obtain ⟨fitsDividend, dividend⟩ := ofRatio_of_lt (decide (n < 0)) within
  obtain ⟨fitsQuotient, quotient⟩ := ofRatio_of_lt (decide (n < 0)) within'
  obtain ⟨fitsProduct, product⟩ := ofRatio_of_lt (decide (n < 0)) within''
  have divided : (ofInt n / ofInt k : Binary f) = finite (decide (n < 0)) _ fitsQuotient := by
    rw [divisor, ofInt_eq, dividend, ← quotient]
    simp only [read]
    exact div_quanta _ _ fits pos
  refine ⟨_, fitsQuotient, fitsProduct, divided, ?_⟩
  rw [divided, divisor, mul_quanta]
  exact product

end Binary

end Plc
