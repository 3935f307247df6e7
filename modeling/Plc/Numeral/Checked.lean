import Plc.Instances

/-!
# Integers of 64 bits with overflow

Dates and durations are reckoned on integers of 64 bits. Each step is exact and then checked: an outcome that
does not fit is an overflow, and so is everything that is made of it. A reckoning that comes to an integer has
therefore overflowed nowhere on the way.

Main statements: `exists_of_step`, that an overflow is never lost, `step_is_iff`, that no other step overflows,
and `Is.add`, `Is.sub`, `Is.mul`, `Is.div`, `Is.emod`, what a step comes to if its outcome fits.
-/

namespace Plc

/-- An integer of 64 bits, or the overflow that some step has ended in. -/
structure Checked where
  value? : Option Int
  deriving DecidableEq, Repr

namespace Checked

/-! ## §1 Steps -/

/-- The integer fits 64 bits. -/
def Fits (n : Int) : Prop := -2 ^ 63 ≤ n ∧ n < 2 ^ 63

instance (n : Int) : Decidable (Fits n) := inferInstanceAs (Decidable (_ ∧ _))

/-- The integer if it fits, else an overflow. -/
def ofInt (n : Int) : Checked := ⟨if Fits n then some n else none⟩

instance : Inhabited Checked := ⟨ofInt 0⟩

instance (n : Nat) : OfNat Checked n := ⟨ofInt n⟩

/-- One step on two integers. -/
def step (op : Int → Int → Int) (a b : Checked) : Checked :=
  match a.value?, b.value? with
  | some m, some n => ofInt (op m n)
  | _, _ => ⟨none⟩

instance : Add Checked := ⟨step (· + ·)⟩
instance : Sub Checked := ⟨step (· - ·)⟩
instance : Mul Checked := ⟨step (· * ·)⟩

/-- The quotient, truncated toward zero. There is none by zero. -/
def div (a b : Checked) : Checked := if b = 0 then ⟨none⟩ else step Int.tdiv a b

instance : Div Checked := ⟨div⟩

/-- The rest that is not negative. There is one where there is a quotient. -/
def mod (a b : Checked) : Checked := if (a / b).value?.isSome then step (· % ·) a b else ⟨none⟩

instance : Mod Checked := ⟨mod⟩

/-- There is an integer, and it is below zero. -/
def isNegative (a : Checked) : Bool := a.value?.any (· < 0)

/-! ## §2 Steps that fit -/

/-- The reckoning has come to the integer, without an overflow. -/
def Is (a : Checked) (n : Int) : Prop := a.value? = some n

variable {a b : Checked} {m n : Int}

theorem is_ofInt (fits : Fits n) : (ofInt n).Is n := if_pos fits

theorem is_ofNat (n : Nat) (fits : Fits n) : (OfNat.ofNat n : Checked).Is n := is_ofInt fits

theorem is_step {op : Int → Int → Int} (left : a.Is m) (right : b.Is n) (fits : Fits (op m n)) :
    (step op a b).Is (op m n) := by
  unfold Is at left right
  unfold step
  rw [left, right]
  exact is_ofInt fits

/-- An overflow is never lost: a step comes to an integer only from two integers, and only if it fits. -/
theorem exists_of_step {op : Int → Int → Int} (is : (step op a b).Is n) :
    ∃ l r, a.Is l ∧ b.Is r ∧ Fits (op l r) ∧ op l r = n := by
  unfold Is step at is
  split at is
  case h_1 l r left right =>
    obtain ⟨fits, same⟩ := Option.ite_none_right_eq_some.mp is
    exact ⟨l, r, left, right, fits, Option.some.inj same⟩
  case h_2 => cases is

/-- A quotient by a positive integer is no further from zero than what was divided. -/
theorem Fits.tdiv (fits : Fits m) (positive : 0 < n) : Fits (m.tdiv n) := by
  obtain ⟨least, limit⟩ := fits
  have nearer := Int.natAbs_tdiv_le_natAbs m n
  rcases Int.le_total 0 m with nonneg | nonpos
  · have above := Int.tdiv_nonneg nonneg (Int.le_of_lt positive)
    exact ⟨by omega, by omega⟩
  · have below := Int.tdiv_le_tdiv positive nonpos
    rw [Int.zero_tdiv] at below
    exact ⟨by omega, by omega⟩

namespace Is

theorem add (left : a.Is m) (right : b.Is n) (fits : Fits (m + n)) : (a + b).Is (m + n) :=
  is_step left right fits

theorem sub (left : a.Is m) (right : b.Is n) (fits : Fits (m - n)) : (a - b).Is (m - n) :=
  is_step left right fits

theorem mul (left : a.Is m) (right : b.Is n) (fits : Fits (m * n)) : (a * b).Is (m * n) :=
  is_step left right fits

theorem congr (is : a.Is m) (same : m = n) : a.Is n := same ▸ is

theorem unique (is : a.Is m) (is' : a.Is n) : m = n := Option.some.inj (is.symm.trans is')

theorem div (left : a.Is m) (right : b.Is n) (nonzero : n ≠ 0) (fits : Fits (m.tdiv n)) :
    (a / b).Is (m.tdiv n) := by
  have divisor : b ≠ 0 := by
    rintro rfl
    exact nonzero (right.unique (is_ofNat 0 (by decide)))
  show (if b = 0 then _ else step Int.tdiv a b).Is _
  rw [if_neg divisor]
  exact is_step left right fits

/-- Where the dividend is not negative, the quotient is rounded down as well. -/
theorem ediv (left : a.Is m) (right : b.Is n) (nonneg : 0 ≤ m) (positive : 0 < n)
    (fits : Fits (m / n)) : (a / b).Is (m / n) := by
  rw [← Int.tdiv_eq_ediv_of_nonneg nonneg] at fits ⊢
  exact left.div right (Int.ne_of_gt positive) fits

/-- By a positive integer there is always a quotient, and the rest fits as the divisor does. -/
theorem emod (left : a.Is m) (right : b.Is n) (fits : Fits m) (fits' : Fits n) (positive : 0 < n) :
    (a % b).Is (m % n) := by
  have quotient : (a / b).Is (m.tdiv n) :=
    left.div right (Int.ne_of_gt positive) (fits.tdiv positive)
  have least := Int.emod_nonneg m (Int.ne_of_gt positive)
  have limit := Int.lt_trans (Int.emod_lt_of_pos m positive) fits'.2
  show (if (a / b).value?.isSome then step (· % ·) a b else _).Is _
  rw [quotient]
  exact is_step left right ⟨by omega, limit⟩

theorem isNegative_eq (is : a.Is n) : a.isNegative = decide (n < 0) := by
  unfold isNegative
  rw [is]
  rfl

end Is

/-- Between integers a step comes to what fits. -/
theorem step_is_iff {op : Int → Int → Int} {l r : Int} (left : a.Is l) (right : b.Is r) :
    (step op a b).Is n ↔ Fits (op l r) ∧ op l r = n := by
  constructor
  · intro is
    obtain ⟨l', r', left', right', fits, same⟩ := exists_of_step is
    obtain rfl := left.unique left'
    obtain rfl := right.unique right'
    exact ⟨fits, same⟩
  · rintro ⟨fits, rfl⟩
    exact is_step left right fits

end Checked

end Plc
