import Plc.Proofs.Binary.Whole

/-!
# Truncated reals

A finite value is a count of quanta under a sign, and the integer next to it toward zero is the count of whole
units in it, under the same sign. Reals are only truncated between two limits. Truncating between narrow limits
comes to truncating between wide ones and holding the integer at the narrow limits afterwards. A wider format
holds the values of a narrower one exactly, so that neither their integers are changed by the step between the
formats.

Main statements:

* `Binary.truncated_iff`: what it is that truncation returns.
* `Binary.truncate_between`: narrow limits and wide ones.
* `Binary.convert_of_covers`, `Binary.truncate_convert`: on to a wider format.
-/

namespace Plc

namespace Binary

variable {f : Format}

/-! ## §1 The integer next to a value -/

/-- The integer is the one next to the magnitude under the sign, toward zero. -/
structure IntegerPart (f : Format) (negative : Bool) (units : Nat) (n : Int) : Prop where
  lower : n.natAbs * 2 ^ f.scale ≤ units
  upper : units < (n.natAbs + 1) * 2 ^ f.scale
  sign : if negative then n ≤ 0 else 0 ≤ n

/-- The integer is the one next to the value, toward zero, and held between two limits, which infinities go
to. Not-a-number counts as zero. -/
def Truncated (low high : Int) : Binary f → Int → Prop
  | nan, n => n = 0
  | infinite negative, n => n = if negative then low else high
  | finite negative units _, n => ∃ m, IntegerPart f negative units m ∧ n = max low (min high m)

theorem integerPart_iff {negative : Bool} {units : Nat} {n : Int} :
    IntegerPart f negative units n ↔ n = signed negative (units / 2 ^ f.scale) := by
  have positive := Nat.two_pow_pos f.scale
  constructor
  · intro part
    have whole : units / 2 ^ f.scale = n.natAbs := Nat.div_eq_of_lt_le part.lower part.upper
    have sign := part.sign
    unfold signed
    rw [whole]
    cases negative with
    | true =>
      have nonpos : n ≤ 0 := sign
      rw [if_pos rfl]
      omega
    | false =>
      have nonneg : 0 ≤ n := sign
      rw [if_neg Bool.false_ne_true]
      omega
  · rintro rfl
    refine ⟨?_, ?_, ?_⟩
    · rw [natAbs_signed]
      exact Nat.div_mul_le_self _ _
    · rw [natAbs_signed]
      exact (Nat.div_lt_iff_lt_mul positive).mp (Nat.lt_succ_self _)
    · cases negative with
      | true => exact Int.neg_nonpos_of_nonneg (Int.natCast_nonneg _)
      | false => exact Int.natCast_nonneg _

theorem truncated_iff {low high n : Int} {x : Binary f} : x.Truncated low high n ↔ n = x.truncate low high := by
  cases x with
  | nan => rfl
  | infinite negative => rfl
  | finite negative units fits =>
    show (∃ m, IntegerPart f negative units m ∧ n = max low (min high m)) ↔ _
    simp only [integerPart_iff, exists_eq_left]
    rfl

/-! ## §2 Narrow limits and wide ones -/

theorem truncate_between {low high low' high' : Int} (least : low ≤ low') (nonpos : low' ≤ 0)
    (nonneg : 0 ≤ high') (greatest : high' ≤ high) (x : Binary f) :
    x.truncate low' high' = max low' (min high' (x.truncate low high)) := by
  cases x with
  | nan =>
    show 0 = max low' (min high' 0)
    omega
  | infinite negative =>
    cases negative with
    | true =>
      show low' = max low' (min high' low)
      omega
    | false =>
      show high' = max low' (min high' high)
      omega
  | finite negative units fits =>
    unfold truncate
    dsimp only
    omega

end Binary

/-! ## §3 Wider formats -/

/-- The format `g` holds every value of the format `f`. -/
structure Format.Covers (g f : Format) : Prop where
  precision : f.precision ≤ g.precision
  scale : f.scale ≤ g.scale
  span : f.span + (g.scale - f.scale) ≤ g.span

theorem Format.double_covers_single : Format.double.Covers .single := ⟨by decide, by decide, by decide⟩

namespace Format.Covers

variable {f g : Format} {units : Nat} (covers : g.Covers f)
include covers

theorem aligned (aligned : f.Aligned units) : g.Aligned units := by
  have precision := covers.precision
  have less : g.excess units ≤ f.excess units := by
    unfold excess
    omega
  exact Nat.dvd_trans (Nat.pow_dvd_pow 2 less) aligned

/-- In the wider format a value counts more quanta, by a power of two. -/
theorem fits (fits : f.Fits units) : g.Fits (units * 2 ^ (g.scale - f.scale)) := by
  have kept := g.round_two_pow units (g.scale - f.scale)
  rw [round_of_aligned (covers.aligned fits.1)] at kept
  refine ⟨kept ▸ g.aligned_round _ _, ?_⟩
  calc units * 2 ^ (g.scale - f.scale)
    _ < 2 ^ f.span * 2 ^ (g.scale - f.scale) := Nat.mul_lt_mul_of_pos_right fits.2 (Nat.two_pow_pos _)
    _ = 2 ^ (f.span + (g.scale - f.scale)) := (Nat.pow_add ..).symm
    _ ≤ 2 ^ g.span := Nat.pow_le_pow_right (by decide) covers.span

theorem two_pow_scale : (2 : Nat) ^ g.scale = 2 ^ (g.scale - f.scale) * 2 ^ f.scale := by
  rw [← Nat.pow_add, Nat.sub_add_cancel covers.scale]

end Format.Covers

namespace Binary

variable {f g : Format} (covers : g.Covers f)
include covers

theorem convert_of_covers (negative : Bool) {units : Nat} (fits : f.Fits units) :
    (finite negative units fits).convert =
      (finite negative (units * 2 ^ (g.scale - f.scale)) (covers.fits fits) : Binary g) := by
  have quanta : units * 2 ^ g.scale * 1 = units * 2 ^ (g.scale - f.scale) * 2 ^ f.scale := by
    rw [Nat.mul_one, covers.two_pow_scale, Nat.mul_assoc]
  have rounded : g.round (units * 2 ^ g.scale) (2 ^ f.scale) = g.round (units * 2 ^ (g.scale - f.scale)) 1 :=
    g.round_congr (Nat.two_pow_pos _) Nat.one_pos quanta
  rw [← ofRatio_units (covers.fits fits)]
  exact ofRatio_congr rounded negative

theorem truncate_convert (low high : Int) (x : Binary f) :
    (x.convert : Binary g).truncate low high = x.truncate low high := by
  cases x with
  | nan => rfl
  | infinite negative => rfl
  | finite negative units fits =>
    have whole : units * 2 ^ (g.scale - f.scale) / 2 ^ g.scale = units / 2 ^ f.scale := by
      rw [covers.two_pow_scale, Nat.mul_comm units, Nat.mul_div_mul_left _ _ (Nat.two_pow_pos _)]
    rw [convert_of_covers covers]
    unfold truncate
    dsimp only
    rw [whole]

end Binary

end Plc
