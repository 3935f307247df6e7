import Mathlib.Tactic.Ring
import Plc.Binary.Text
import Plc.Proofs.Text

/-!
# Whole numbers in binary floating point

A whole number that has no more significant bits than the format keeps is held exactly, and any other
one is rounded to a neighbour that has. Sums and products of whole numbers are those of their roundings,
rounded once more, as long as they stay below the infinities.

Main statements:

* `Format.round_of_aligned`: rounding keeps what the format holds.
* `Format.round_two_pow`: rounding does not look at trailing zeros, so it does not matter whether quanta
  or wholes are counted.
* `Format.round_near`, `Format.Near`: how far one rounding goes, and how far several go in a row.
* `Binary.add_ofInt`, `Binary.mul_ofInt`, `Binary.nearestInt?_ofInt`, `Binary.ofChars?_digits`: what the
  operations do to whole numbers.
* `Binary.rank_ofInt`, `Binary.compare?_ofInt`: which whole value a number of few bits is.
-/

namespace Plc

/-! ## §1 The nearest natural number -/

/-- Down or up, and never by more than a half. -/
theorem nearestEven_cases (num den : Nat) :
    nearestEven num den = num / den ∧ 2 * (num % den) ≤ den ∨
      nearestEven num den = num / den + 1 ∧ den ≤ 2 * (num % den) := by
  unfold nearestEven
  dsimp only
  split
  · exact Or.inl ⟨rfl, by omega⟩
  · split
    · exact Or.inr ⟨rfl, by omega⟩
    · -- A half goes to the even one of the two neighbours.
      rcases Nat.mod_two_eq_zero_or_one (num / den) with even | odd
      · exact Or.inl ⟨by omega, by omega⟩
      · exact Or.inr ⟨by omega, by omega⟩

theorem nearestEven_mul_right (num den : Nat) {k : Nat} (pos : 0 < k) :
    nearestEven (num * k) (den * k) = nearestEven num den := by
  have below : 2 * (num % den * k) < den * k ↔ 2 * (num % den) < den := by
    rw [← Nat.mul_assoc]
    exact Nat.mul_lt_mul_right pos
  have above : den * k < 2 * (num % den * k) ↔ den < 2 * (num % den) := by
    rw [← Nat.mul_assoc]
    exact Nat.mul_lt_mul_right pos
  unfold nearestEven
  simp only [Nat.mul_div_mul_right _ _ pos, Nat.mul_mod_mul_right, below, above]

theorem nearestEven_mul_self (n : Nat) {den : Nat} (pos : 0 < den) : nearestEven (n * den) den = n := by
  unfold nearestEven
  simp [Nat.mul_div_cancel n pos, pos]

theorem div_le_nearestEven (num den : Nat) : num / den ≤ nearestEven num den := by
  rcases nearestEven_cases num den with ⟨down, _⟩ | ⟨up, _⟩
  · exact Nat.le_of_eq down.symm
  · rw [up]
    exact Nat.le_succ _

theorem nearestEven_near (num : Nat) {den : Nat} (pos : 0 < den) :
    2 * (nearestEven num den * den) ≤ 2 * num + den ∧
      2 * num ≤ 2 * (nearestEven num den * den) + den := by
  have whole := Nat.div_add_mod num den
  rw [Nat.mul_comm] at whole
  rcases nearestEven_cases num den with ⟨down, half⟩ | ⟨up, half⟩
  · rw [down]
    omega
  · have next : (num / den + 1) * den = num / den * den + den := Nat.succ_mul _ _
    have rest := Nat.mod_lt num pos
    rw [up, next]
    omega

/-! ## §2 Rounding whole numbers -/

namespace Format

variable {f : Format} {n : Nat}

theorem round_mul_right (num den : Nat) {k : Nat} (pos : 0 < k) :
    f.round (num * k) (den * k) = f.round num den := by
  unfold round
  dsimp only
  rw [Nat.mul_div_mul_right _ _ pos, Nat.mul_right_comm, nearestEven_mul_right _ _ pos]

theorem round_congr (f : Format) {num den num' den' : Nat} (pos : 0 < den) (pos' : 0 < den')
    (same : num * den' = num' * den) : f.round num den = f.round num' den' := by
  rw [← f.round_mul_right num den pos', same, ← f.round_mul_right num' den' pos, Nat.mul_comm den den']

theorem round_one (f : Format) (n : Nat) :
    f.round n 1 = nearestEven n (2 ^ f.excess n) * 2 ^ f.excess n := by
  unfold round
  dsimp only
  rw [Nat.div_one, Nat.one_mul]

theorem round_of_aligned (aligned : f.Aligned n) : f.round n 1 = n := by
  have whole : n / 2 ^ f.excess n * 2 ^ f.excess n = n := Nat.div_mul_cancel aligned
  have kept := nearestEven_mul_self (n / 2 ^ f.excess n) (Nat.two_pow_pos (f.excess n))
  rw [whole] at kept
  rw [round_one, kept, whole]

theorem round_round (f : Format) (num den : Nat) : f.round (f.round num den) 1 = f.round num den :=
  round_of_aligned (f.aligned_round num den)

theorem aligned_of_excess_eq_zero (fits : f.excess n = 0) : f.Aligned n := by
  unfold Aligned
  rw [fits]
  exact Nat.one_dvd n

theorem log2_two_pow_mul {n : Nat} (pos : 0 < n) (s : Nat) : (n * 2 ^ s).log2 = n.log2 + s := by
  have some : n ≠ 0 := Nat.ne_of_gt pos
  have zeros : n * 2 ^ s ≠ 0 := Nat.ne_of_gt (Nat.mul_pos pos (Nat.two_pow_pos s))
  apply (Nat.log2_eq_iff zeros).mpr
  rw [Nat.pow_add, Nat.add_right_comm, Nat.pow_add]
  constructor
  · exact Nat.mul_le_mul_right _ (Nat.log2_self_le some)
  · exact Nat.mul_lt_mul_of_pos_right Nat.lt_log2_self (Nat.two_pow_pos s)

theorem excess_of_lt (lt : n < 2 ^ f.precision) : f.excess n = 0 := by
  have pos := f.precision_pos
  unfold excess
  by_cases zero : n = 0
  case pos =>
    have none : Nat.log2 0 = 0 := by decide
    rw [zero, none]
    omega
  case neg =>
    have bits := (Nat.log2_lt zero).mpr lt
    omega

/-- Numbers of few bits are held exactly, and so is the first one of one bit more. -/
theorem aligned_of_le (le : n ≤ 2 ^ f.precision) : f.Aligned n := by
  rcases Nat.lt_or_eq_of_le le with lt | rfl
  · exact aligned_of_excess_eq_zero (excess_of_lt lt)
  · have pos := f.precision_pos
    unfold Aligned excess
    rw [Nat.log2_two_pow]
    exact Nat.pow_dvd_pow 2 (by omega)

/-- Trailing zeros take nothing away from the significant bits. -/
theorem round_two_pow (f : Format) (n s : Nat) : f.round (n * 2 ^ s) 1 = f.round n 1 * 2 ^ s := by
  rcases Nat.eq_zero_or_pos n with rfl | pos
  · rw [Nat.zero_mul, round_of_aligned (aligned_of_le (Nat.zero_le _)), Nat.zero_mul]
  by_cases fits : f.excess n = 0
  case pos =>
    -- Nothing is dropped from `n`, and from the longer number at most its zeros.
    have aligned : f.Aligned (n * 2 ^ s) := by
      have few : f.excess (n * 2 ^ s) ≤ s := by
        unfold excess at fits ⊢
        rw [log2_two_pow_mul pos]
        omega
      exact Nat.dvd_trans (Nat.pow_dvd_pow 2 few) (Nat.dvd_mul_left _ n)
    rw [round_of_aligned aligned, round_of_aligned (aligned_of_excess_eq_zero fits)]
  case neg =>
    -- The same bits are dropped, and the zeros below them.
    have more : f.excess (n * 2 ^ s) = f.excess n + s := by
      unfold excess at fits ⊢
      rw [log2_two_pow_mul pos]
      omega
    rw [round_one, round_one, more, Nat.pow_add, nearestEven_mul_right _ _ (Nat.two_pow_pos s),
      Nat.mul_assoc]

/-! ## §3 How far rounding goes -/

/-- Where bits are dropped, the number fills all the places above them. -/
theorem excess_add_precision (inexact : f.excess n ≠ 0) : f.excess n + f.precision = n.log2 + 1 := by
  unfold excess at inexact ⊢
  omega

theorem ne_zero_of_excess (inexact : f.excess n ≠ 0) : n ≠ 0 := by
  rintro rfl
  exact inexact (excess_of_lt (Nat.two_pow_pos _))

/-- Rounding does not fall below a power of two. -/
theorem two_pow_le_round {k : Nat} (le : 2 ^ k ≤ n) : 2 ^ k ≤ f.round n 1 := by
  by_cases fits : f.excess n = 0
  case pos =>
    rw [round_of_aligned (aligned_of_excess_eq_zero fits)]
    exact le
  case neg =>
    have some := ne_zero_of_excess fits
    have places : f.excess n ≤ n.log2 := by
      have bits := excess_add_precision fits
      have pos := f.precision_pos
      omega
    -- The leading bit is among the places that are kept.
    have leading : 2 ^ (n.log2 - f.excess n) ≤ n / 2 ^ f.excess n := by
      apply (Nat.le_div_iff_mul_le (Nat.two_pow_pos _)).mpr
      rw [← Nat.pow_add, Nat.sub_add_cancel places]
      exact Nat.log2_self_le some
    calc 2 ^ k
      _ ≤ 2 ^ n.log2 := Nat.pow_le_pow_right (by decide) ((Nat.le_log2 some).mpr le)
      _ = 2 ^ (n.log2 - f.excess n) * 2 ^ f.excess n := by
        rw [← Nat.pow_add, Nat.sub_add_cancel places]
      _ ≤ nearestEven n (2 ^ f.excess n) * 2 ^ f.excess n :=
        Nat.mul_le_mul_right _ (Nat.le_trans leading (div_le_nearestEven _ _))
      _ = f.round n 1 := (f.round_one n).symm

/-- Few whole numbers round to a number of few bits, namely only itself. -/
theorem eq_of_round_lt (lt : f.round n 1 < 2 ^ f.precision) : f.round n 1 = n := by
  apply round_of_aligned
  by_contra inexact
  have large : 2 ^ f.precision ≤ n := Nat.le_of_not_le fun le => inexact (aligned_of_le le)
  exact Nat.not_lt.mpr (two_pow_le_round large) lt

/-- The last place that is kept, seen from the first. -/
theorem two_pow_excess_le (inexact : f.excess n ≠ 0) : 2 ^ f.excess n * 2 ^ f.precision ≤ 2 * n := by
  have least := Nat.log2_self_le (ne_zero_of_excess inexact)
  rw [← Nat.pow_add, excess_add_precision inexact, Nat.pow_succ]
  omega

/-- Rounding changes a number by one part in `2 ^ precision` at most. -/
theorem round_near (f : Format) (n : Nat) :
    f.round n 1 * 2 ^ f.precision ≤ n * 2 ^ f.precision + n ∧
      n * 2 ^ f.precision ≤ f.round n 1 * 2 ^ f.precision + n := by
  by_cases fits : f.excess n = 0
  case pos =>
    rw [round_of_aligned (aligned_of_excess_eq_zero fits)]
    omega
  case neg =>
    -- The error is half of the last place, and that place is small beside the number.
    have last := two_pow_excess_le fits
    obtain ⟨upper, lower⟩ := nearestEven_near n (Nat.two_pow_pos (f.excess n))
    rw [← f.round_one n] at upper lower
    have upper := Nat.mul_le_mul_right (2 ^ f.precision) upper
    have lower := Nat.mul_le_mul_right (2 ^ f.precision) lower
    simp only [Nat.add_mul, Nat.mul_assoc] at upper lower
    omega

/-- What `steps` roundings in a row can make of a number: a factor from `1 - 2 ^ (-precision)` to
`1 + 2 ^ (-precision)` for each of them. -/
structure Near (f : Format) (steps exact rounded : Nat) : Prop where
  lower : exact * (2 ^ f.precision - 1) ^ steps ≤ rounded * (2 ^ f.precision) ^ steps
  upper : rounded * (2 ^ f.precision) ^ steps ≤ exact * (2 ^ f.precision + 1) ^ steps

namespace Near

variable {steps m r r' : Nat}

theorem add (near : f.Near steps n r) (near' : f.Near steps m r') :
    f.Near steps (n + m) (r + r') where
  lower := by
    rw [Nat.add_mul, Nat.add_mul]
    exact Nat.add_le_add near.lower near'.lower
  upper := by
    rw [Nat.add_mul, Nat.add_mul]
    exact Nat.add_le_add near.upper near'.upper

theorem mul_right (near : f.Near steps n r) (k : Nat) : f.Near steps (n * k) (r * k) where
  lower := by
    rw [Nat.mul_right_comm, Nat.mul_right_comm r]
    exact Nat.mul_le_mul_right k near.lower
  upper := by
    rw [Nat.mul_right_comm, Nat.mul_right_comm n]
    exact Nat.mul_le_mul_right k near.upper

/-- One more rounding, of a number that is near already. -/
theorem trans (near : f.Near steps n r) (near' : f.Near 1 r r') : f.Near (steps + 1) n r' where
  lower := by
    have step := near'.lower
    rw [Nat.pow_one, Nat.pow_one] at step
    calc n * (2 ^ f.precision - 1) ^ (steps + 1)
      _ = n * (2 ^ f.precision - 1) ^ steps * (2 ^ f.precision - 1) := by rw [Nat.pow_succ, Nat.mul_assoc]
      _ ≤ r * (2 ^ f.precision) ^ steps * (2 ^ f.precision - 1) := Nat.mul_le_mul_right _ near.lower
      _ = r * (2 ^ f.precision - 1) * (2 ^ f.precision) ^ steps := Nat.mul_right_comm ..
      _ ≤ r' * 2 ^ f.precision * (2 ^ f.precision) ^ steps := Nat.mul_le_mul_right _ step
      _ = r' * (2 ^ f.precision) ^ (steps + 1) := by rw [Nat.mul_assoc, Nat.pow_succ']
  upper := by
    have step := near'.upper
    rw [Nat.pow_one, Nat.pow_one] at step
    calc r' * (2 ^ f.precision) ^ (steps + 1)
      _ = r' * 2 ^ f.precision * (2 ^ f.precision) ^ steps := by rw [Nat.mul_assoc, Nat.pow_succ']
      _ ≤ r * (2 ^ f.precision + 1) * (2 ^ f.precision) ^ steps := Nat.mul_le_mul_right _ step
      _ = r * (2 ^ f.precision) ^ steps * (2 ^ f.precision + 1) := Nat.mul_right_comm ..
      _ ≤ n * (2 ^ f.precision + 1) ^ steps * (2 ^ f.precision + 1) := Nat.mul_le_mul_right _ near.upper
      _ = n * (2 ^ f.precision + 1) ^ (steps + 1) := by rw [Nat.pow_succ, Nat.mul_assoc]

theorem one_self (f : Format) (n : Nat) : f.Near 1 n n where
  lower := by
    rw [Nat.pow_one, Nat.pow_one]
    exact Nat.mul_le_mul_left n (Nat.sub_le _ 1)
  upper := by
    rw [Nat.pow_one, Nat.pow_one]
    exact Nat.mul_le_mul_left n (Nat.le_succ _)

theorem one_round (f : Format) (n : Nat) : f.Near 1 n (f.round n 1) where
  lower := by
    have near := (f.round_near n).2
    rw [Nat.pow_one, Nat.pow_one, Nat.mul_sub_one]
    omega
  upper := by
    rw [Nat.pow_one, Nat.pow_one, Nat.mul_add_one]
    exact (f.round_near n).1

theorem round (near : f.Near steps n r) : f.Near (steps + 1) n (f.round r 1) :=
  near.trans (one_round f r)

theorem mono (near : f.Near steps n r) {more : Nat} (le : steps ≤ more) : f.Near more n r := by
  induction more, le using Nat.le_induction with
  | base => exact near
  | succ more _ ih => exact ih.trans (one_self f r)

end Near

/-- The least whole number beyond the format. -/
def top (f : Format) : Nat := 2 ^ (f.span - f.scale)

end Format

/-! ## §4 Whole numbers as values -/

namespace Binary

variable {f : Format} {a b n : Nat}

theorem ofRatio_congr {num den num' den' : Nat} (same : f.round num den = f.round num' den')
    (negative : Bool) : (ofRatio negative num den : Binary f) = ofRatio negative num' den' := by
  unfold ofRatio
  simp only [same]

theorem ofSignedRatio_natCast (n den : Nat) :
    (ofSignedRatio (n : Int) den : Binary f) = ofRatio false n den := by
  unfold ofSignedRatio
  rw [Int.natAbs_natCast, decide_eq_false (by omega)]

theorem ofInt_natCast (n : Nat) : (ofInt n : Binary f) = ofRatio false (n * 2 ^ f.scale) 1 := by
  have quanta : (n : Int) * 2 ^ f.scale = (n * 2 ^ f.scale : Nat) := by push_cast; rfl
  unfold ofInt
  rw [quanta, ofSignedRatio_natCast]

theorem ofRatio_zero : (ofRatio false 0 1 : Binary f) = zero false := by
  have nothing : f.round 0 1 = 0 := Format.round_of_aligned f.fits_zero.1
  unfold ofRatio zero
  simp only [nothing, Nat.two_pow_pos, dite_true]

/-- A value is made of the rounded number. -/
theorem ofInt_round (n : Nat) : (ofInt (f.round n 1 : Nat) : Binary f) = ofInt n := by
  rw [ofInt_natCast, ofInt_natCast]
  apply ofRatio_congr
  rw [Format.round_two_pow, Format.round_round, Format.round_two_pow]

theorem add_finite {m n : Nat} (fits : f.Fits m) (fits' : f.Fits n) :
    (finite false m fits + finite false n fits' : Binary f) = ofRatio false (m + n) 1 := by
  show (if (m : Int) + n = 0 then zero (false && false) else ofSignedRatio ((m : Int) + n) 1) = _
  have sum : (m : Int) + n = (m + n : Nat) := (Int.natCast_add m n).symm
  rw [sum, ofSignedRatio_natCast]
  split
  case isTrue nothing =>
    rw [Int.natCast_eq_zero.mp nothing]
    exact ofRatio_zero.symm
  case isFalse => rfl

section

variable (le : f.scale ≤ f.span)
include le

theorem round_quanta_lt : f.round (n * 2 ^ f.scale) 1 < 2 ^ f.span ↔ f.round n 1 < f.top := by
  have split : 2 ^ f.span = f.top * 2 ^ f.scale := by
    unfold Format.top
    rw [← Nat.pow_add, Nat.sub_add_cancel le]
  rw [Format.round_two_pow, split]
  exact Nat.mul_lt_mul_right (Nat.two_pow_pos f.scale)

theorem ofInt_of_lt (small : f.round n 1 < f.top) :
    ∃ fits, (ofInt n : Binary f) = .finite false (f.round n 1 * 2 ^ f.scale) fits := by
  have within := (round_quanta_lt le).mpr small
  have quanta := f.round_two_pow n f.scale
  refine ⟨⟨quanta ▸ f.aligned_round _ _, quanta ▸ within⟩, ?_⟩
  rw [ofInt_natCast]
  unfold ofRatio
  rw [dif_pos within]
  simp only [quanta]

theorem ofInt_of_le (large : f.top ≤ f.round n 1) : (ofInt n : Binary f) = .infinite false := by
  rw [ofInt_natCast]
  unfold ofRatio
  rw [dif_neg (fun within => Nat.not_lt.mpr large ((round_quanta_lt le).mp within))]

theorem infinite_of_le (large : f.top ≤ n) : (ofInt n : Binary f) = .infinite false :=
  ofInt_of_le le (Format.two_pow_le_round large)

/-- A sum of whole numbers is rounded after both of them. -/
theorem add_ofInt (a b : Nat) :
    (ofInt a + ofInt b : Binary f) = ofInt (f.round a 1 + f.round b 1 : Nat) := by
  rcases Nat.lt_or_ge (f.round a 1) f.top with small | large
  · rcases Nat.lt_or_ge (f.round b 1) f.top with small' | large'
    · obtain ⟨_, left⟩ := ofInt_of_lt le small
      obtain ⟨_, right⟩ := ofInt_of_lt le small'
      rw [left, right, add_finite, ofInt_natCast, Nat.add_mul]
    · obtain ⟨_, left⟩ := ofInt_of_lt le small
      rw [left, ofInt_of_le le large', infinite_of_le le (Nat.le_trans large' (Nat.le_add_left _ _))]
      rfl
  · -- What is added to a number beyond the format does not bring it back.
    have beyond := infinite_of_le le (Nat.le_trans large (Nat.le_add_right _ (f.round b 1)))
    rw [ofInt_of_le le large, beyond]
    rcases Nat.lt_or_ge (f.round b 1) f.top with small' | large'
    · obtain ⟨_, right⟩ := ofInt_of_lt le small'
      rw [right]
      rfl
    · rw [ofInt_of_le le large']
      rfl

/-- So is a product with a positive factor that the format can tell from an infinity. -/
theorem mul_ofInt (a : Nat) (pos : 0 < f.round b 1) (small : f.round b 1 < f.top) :
    (ofInt a * ofInt b : Binary f) = ofInt (f.round a 1 * f.round b 1 : Nat) := by
  obtain ⟨_, right⟩ := ofInt_of_lt le small
  rcases Nat.lt_or_ge (f.round a 1) f.top with small' | large
  · obtain ⟨_, left⟩ := ofInt_of_lt le small'
    rw [left, right, ofInt_natCast]
    -- The product counts squares of quanta, so one factor goes out again.
    have cancel := f.round_mul_right (f.round a 1 * f.round b 1 * 2 ^ f.scale) 1
      (Nat.two_pow_pos f.scale)
    rw [Nat.one_mul] at cancel
    refine (ofRatio_congr ?_ false : ofRatio false _ (2 ^ f.scale) = _)
    rw [← cancel]
    congr 1
    ring
  · have beyond := infinite_of_le le (Nat.le_trans large (Nat.le_mul_of_pos_right _ pos))
    have some : f.round b 1 * 2 ^ f.scale ≠ 0 :=
      Nat.ne_of_gt (Nat.mul_pos pos (Nat.two_pow_pos f.scale))
    rw [ofInt_of_le le large, right, beyond]
    exact if_neg some

theorem nearestInt?_ofInt (negative : Bool) (n : Nat) :
    (if negative then -ofInt n else ofInt n : Binary f).nearestInt? =
      if f.round n 1 < f.top then some (signed negative (f.round n 1)) else none := by
  rcases Nat.lt_or_ge (f.round n 1) f.top with small | large
  · obtain ⟨fits, value⟩ := ofInt_of_lt le small
    -- A whole count of quanta is its own nearest integer, for a half is not enough to reach the next.
    have half : (2 * (f.round n 1 * 2 ^ f.scale) + 2 ^ f.scale) / (2 * 2 ^ f.scale) = f.round n 1 := by
      have pos := Nat.two_pow_pos f.scale
      rw [Nat.add_comm, Nat.mul_left_comm, Nat.add_mul_div_right _ _ (by omega),
        Nat.div_eq_of_lt (by omega), Nat.zero_add]
    have signs : (if negative then -ofInt n else ofInt n : Binary f) =
        finite negative (f.round n 1 * 2 ^ f.scale) fits := by
      rw [value]
      cases negative <;> rfl
    rw [signs, if_pos small]
    show some (signed negative _) = _
    rw [half]
  · rw [ofInt_of_le le large, if_neg (Nat.not_lt.mpr large)]
    cases negative <;> rfl

end

end Binary

/-! ## §5 Whole values -/

namespace Format

variable {f : Format}

/-- The quanta of a whole number of few bits are below the infinities. -/
theorem quanta_lt {n bits : Nat} (small : n ≤ 2 ^ bits)
    (room : bits + f.scale < f.span) : n * 2 ^ f.scale < 2 ^ f.span :=
  calc n * 2 ^ f.scale
    _ ≤ 2 ^ bits * 2 ^ f.scale := Nat.mul_le_mul_right _ small
    _ = 2 ^ (bits + f.scale) := (Nat.pow_add ..).symm
    _ < 2 ^ f.span := Nat.pow_lt_pow_right (by decide) room

/-- So the format holds them. -/
theorem fits_quanta {n bits : Nat} (small : n ≤ 2 ^ bits) (le : bits ≤ f.precision)
    (room : bits + f.scale < f.span) : f.Fits (n * 2 ^ f.scale) := by
  have few : n ≤ 2 ^ f.precision := Nat.le_trans small (Nat.pow_le_pow_right (by decide) le)
  have kept := f.round_two_pow n f.scale
  rw [round_of_aligned (aligned_of_le few)] at kept
  exact ⟨kept ▸ f.aligned_round _ _, quanta_lt small room⟩

end Format

namespace Binary

variable {f : Format}

theorem ofRatio_units {units : Nat} (fits : f.Fits units) (negative : Bool) :
    (ofRatio negative units 1 : Binary f) = finite negative units fits := by
  have kept := Format.round_of_aligned fits.1
  unfold ofRatio
  simp only [kept, fits.2, dite_true]

theorem signed_natAbs (n : Int) : signed (decide (n < 0)) n.natAbs = n := by
  unfold signed
  split
  case isTrue negative =>
    have below := of_decide_eq_true negative
    omega
  case isFalse nonnegative =>
    have above : ¬n < 0 := by simpa using nonnegative
    omega

/-- Small whole numbers are held exactly. -/
theorem rank_ofInt {n : Int} {bits : Nat} (small : n.natAbs ≤ 2 ^ bits) (le : bits ≤ f.precision)
    (room : bits + f.scale < f.span) : (ofInt n : Binary f).rank = some (n * 2 ^ f.scale) := by
  have units : (n * 2 ^ f.scale).natAbs = n.natAbs * 2 ^ f.scale := by
    rw [Int.natAbs_mul, Int.natAbs_pow]
    rfl
  unfold ofInt ofSignedRatio
  rw [units, ofRatio_units (Format.fits_quanta small le room)]
  show some (signed _ (n.natAbs * 2 ^ f.scale)) = _
  rw [← units, signed_natAbs]

variable (negative : Bool) (m : Nat)

theorem natAbs_signed : (signed negative m).natAbs = m := by
  cases negative <;> simp [signed]

theorem signed_quanta : signed negative (m * 2 ^ f.scale) = signed negative m * 2 ^ f.scale := by
  unfold signed
  split <;> push_cast <;> ring

theorem dvd_of_signed {negative : Bool} {units : Nat} {n : Int}
    (same : signed negative units = n * 2 ^ f.scale) : 2 ^ f.scale ∣ units := by
  have sizes := congrArg Int.natAbs same
  rw [natAbs_signed, Int.natAbs_mul, Int.natAbs_pow] at sizes
  exact ⟨n.natAbs, sizes.trans (Nat.mul_comm _ _)⟩

theorem compare?_self {units : Nat} (fits : f.Fits units) :
    (finite negative units fits).compare? (finite negative units fits) = some .eq := by
  simp [compare?, rank]

theorem quanta_inj {a b : Int} : a * 2 ^ f.scale = b * 2 ^ f.scale ↔ a = b :=
  Int.mul_eq_mul_right_iff (Int.ne_of_gt (Int.pow_pos (by decide)))

/-- A whole value is the whole number that its quanta make. -/
theorem forall_whole_iff {P : Int → Prop} :
    (∀ n : Int, signed negative (m * 2 ^ f.scale) = n * 2 ^ f.scale → P n) ↔ P (signed negative m) := by
  simp only [signed_quanta, quanta_inj, forall_eq']

/-- A small whole number equals a whole value if the two are one number. -/
theorem compare?_ofInt {n : Int} {bits : Nat} (small : n.natAbs ≤ 2 ^ bits) (le : bits ≤ f.precision)
    (room : bits + f.scale < f.span) (fits : f.Fits (m * 2 ^ f.scale)) :
    (ofInt n : Binary f).compare? (finite negative (m * 2 ^ f.scale) fits) = some .eq ↔
      n = signed negative m := by
  have right : (finite negative (m * 2 ^ f.scale) fits).rank = some (signed negative m * 2 ^ f.scale) :=
    congrArg some (signed_quanta negative m)
  unfold compare?
  simp only [rank_ofInt small le room, right, Option.some.injEq, compare_eq_iff_eq, quanta_inj]

/-! ## §6 Whole numbers in text -/

/-- A run of digits is a decimal without a fraction. -/
theorem decimal_digits {cs : List Char} (digits : ∀ c ∈ cs, c.isDigit = true) (some : cs ≠ []) :
    Decimal.ofChars? cs = Option.some ⟨Nat.ofDigitChars 10 cs 0, 0⟩ := by
  obtain ⟨whole, rest⟩ := Text.span_self digits
  have parts : Decimal.splitPoint cs = (cs, [], []) := by
    unfold Decimal.splitPoint
    rw [whole, rest]
  have present : (cs.isEmpty && ([] : List Char).isEmpty) = false := by
    simpa using some
  unfold Decimal.ofChars?
  simp only [parts, present]
  simp [Decimal.trailingExponent?]

theorem ofChars?_digits {cs : List Char} (digits : ∀ c ∈ cs, c.isDigit = true) (some : cs ≠ []) :
    (ofChars? cs : Option (Binary f)) = Option.some (ofInt (Nat.ofDigitChars 10 cs 0 : Nat)) := by
  unfold ofChars?
  simp only [Numeral.splitSign_of_isDigit digits, decimal_digits digits some]
  apply congrArg Option.some
  rw [ofInt_natCast]
  unfold ofDecimal
  split
  case isTrue zero =>
    have zero : Nat.ofDigitChars 10 cs 0 = 0 := zero
    rw [zero, Nat.zero_mul]
    exact ofRatio_zero.symm
  case isFalse =>
    rw [if_neg (by simp), if_neg (by simp; omega)]
    simp

end Binary

end Plc
