import Plc.Instances

/-!
# Binary floating-point formats

A format keeps a fixed number of significant bits and has a smallest positive value, its *quantum*.
Every finite value of the format is a whole number of quanta, so a magnitude is one natural number
and questions about order, exactness and rounding are questions about natural numbers.

Main statements:

* `Format.round` sends an exact quotient of natural numbers, read in quanta, to the nearest
  magnitude of the format, a tie going to the even neighbour.
* `Format.aligned_round` says that what it returns never has more significant bits than the format.
-/

namespace Plc

/-! ## §1 Formats and their magnitudes -/

/-- A binary format: `precision` significant bits, quantum `2 ^ (-scale)`, and finite magnitudes
below `2 ^ span` quanta. -/
structure Format where
  precision : Nat
  scale : Nat
  span : Nat
  precision_pos : 0 < precision := by decide

namespace Format

/-- The 32-bit format of REAL. -/
def single : Format where
  precision := 24
  scale := 149
  span := 277

/-- The 64-bit format of LREAL. -/
def double : Format where
  precision := 53
  scale := 1074
  span := 2098

/-- How many low bits of an `n`-quanta magnitude lie beyond the significant ones. -/
def excess (f : Format) (n : Nat) : Nat := n.log2 + 1 - f.precision

/-- The magnitude has no more significant bits than the format keeps. -/
def Aligned (f : Format) (n : Nat) : Prop := 2 ^ f.excess n ∣ n

/-- The magnitude is one that the format holds. -/
def Fits (f : Format) (n : Nat) : Prop := f.Aligned n ∧ n < 2 ^ f.span

instance (f : Format) (n : Nat) : Decidable (f.Aligned n) := by unfold Aligned; infer_instance

instance (f : Format) (n : Nat) : Decidable (f.Fits n) := by unfold Fits; infer_instance

theorem fits_zero (f : Format) : f.Fits 0 := ⟨⟨0, by simp⟩, Nat.two_pow_pos _⟩

end Format

/-! ## §2 Rounding a quotient -/

/-- The natural number nearest to `num / den`, a half going to the even neighbour. -/
def nearestEven (num den : Nat) : Nat :=
  let whole := num / den
  let rest := num % den
  if 2 * rest < den then whole
  else if den < 2 * rest then whole + 1
  else whole + whole % 2

/-- The nearest natural number is the quotient or its successor. -/
theorem nearestEven_le (num den : Nat) : nearestEven num den ≤ num / den + 1 := by
  unfold nearestEven
  dsimp only
  split
  · omega
  · split <;> omega

namespace Format

/-- The magnitude of the format nearest to `num / den` quanta. It may reach `2 ^ span`, which is the
sign of an overflow. -/
def round (f : Format) (num den : Nat) : Nat :=
  let step := 2 ^ f.excess (num / den)
  nearestEven num (den * step) * step

/-- Helper: a number of at most `precision + s` bits loses at most `s` of them. -/
private theorem excess_le {f : Format} {n s : Nat} (h : n < 2 ^ (f.precision + s)) :
    f.excess n ≤ s := by
  have pos := f.precision_pos
  unfold excess
  by_cases hn : n = 0
  · subst hn
    have : Nat.log2 0 = 0 := by decide
    omega
  · have := (Nat.log2_lt hn).mpr h
    omega

/-- Helper: the significand that rounding keeps is at most `2 ^ precision`. -/
private theorem nearestEven_excess_le (f : Format) (num den : Nat) :
    nearestEven num (den * 2 ^ f.excess (num / den)) ≤ 2 ^ f.precision := by
  refine Nat.le_trans (nearestEven_le _ _) ?_
  rw [← Nat.div_div_eq_div_mul]
  refine Nat.div_lt_of_lt_mul ?_
  rw [← Nat.pow_add]
  refine Nat.lt_of_lt_of_le Nat.lt_log2_self (Nat.pow_le_pow_right (by decide) ?_)
  unfold excess
  omega

/-- Rounding never leaves more significant bits than the format keeps. -/
theorem aligned_round (f : Format) (num den : Nat) : f.Aligned (f.round num den) := by
  have bound := nearestEven_excess_le f num den
  unfold Aligned round
  dsimp only
  generalize f.excess (num / den) = s at *
  generalize nearestEven num (den * 2 ^ s) = q at *
  by_cases top : q = 2 ^ f.precision
  · subst top
    rw [← Nat.pow_add]
    refine Nat.pow_dvd_pow 2 ?_
    have pos := f.precision_pos
    unfold excess
    rw [Nat.log2_two_pow]
    omega
  · have small : q * 2 ^ s < 2 ^ (f.precision + s) := by
      rw [Nat.pow_add]
      exact Nat.mul_lt_mul_of_pos_right (by omega) (Nat.two_pow_pos s)
    exact Nat.dvd_trans (Nat.pow_dvd_pow 2 (excess_le small)) ⟨q, Nat.mul_comm _ _⟩

end Format

end Plc
