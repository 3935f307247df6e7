/-!
# Integers in text

Digits of a radix, whole numbers written with them, and signed decimal integers. Letters count as
digits from ten on, in either case; digits outside ASCII are not digits.

Main statements:

* `integer?_render` reads back what `render` writes.
* `integer?` accepts one leading sign of either kind and any number of leading zeros.
-/

namespace Plc.Numeral

/-! ## §1 Digits -/

/-- The value of a digit or letter, `0`–`9` and then `A`–`Z` in either case. -/
def digitValue? (c : Char) : Option Nat :=
  if c.isDigit then some (c.toNat - '0'.toNat)
  else if c.isUpper then some (c.toNat - 'A'.toNat + 10)
  else if c.isLower then some (c.toNat - 'a'.toNat + 10)
  else none

/-- The value of a digit below `radix`. -/
def digit? (radix : Nat) (c : Char) : Option Nat :=
  (digitValue? c).filter (· < radix)

/-- Continues a number with further digits, most significant first. -/
def digits? (radix : Nat) : Nat → List Char → Option Nat
  | acc, [] => some acc
  | acc, c :: rest => (digit? radix c).bind fun d => digits? radix (acc * radix + d) rest

/-! ## §2 Whole numbers and signed integers -/

/-- A non-empty run of digits of `radix`. -/
def natural? (radix : Nat) (cs : List Char) : Option Nat :=
  if cs.isEmpty then none else digits? radix 0 cs

/-- Splits a leading sign off; the flag is set for a minus. -/
def splitSign : List Char → Bool × List Char
  | '-' :: rest => (true, rest)
  | '+' :: rest => (false, rest)
  | cs => (false, cs)

/-- A decimal integer under an optional sign. -/
def integer? (cs : List Char) : Option Int :=
  let (negative, body) := splitSign cs
  (natural? 10 body).map fun (n : Nat) => if negative then -(n : Int) else n

/-- A decimal integer that lies between two limits. -/
def integerWithin? (low high : Int) (cs : List Char) : Option Int :=
  (integer? cs).filter fun n => low ≤ n && n ≤ high

/-- The decimal text of an integer: a minus if it is negative, no leading zeros. -/
def render (n : Int) : List Char :=
  if n < 0 then '-' :: Nat.toDigits 10 n.natAbs else Nat.toDigits 10 n.natAbs

/-! ## §3 Reading back -/

theorem digit?_of_isDigit {c : Char} (h : c.isDigit) : digit? 10 c = some (c.toNat - '0'.toNat) := by
  have bound : c.toNat - '0'.toNat < 10 := by
    simp only [Char.isDigit, Bool.and_eq_true, decide_eq_true_eq, ge_iff_le] at h
    have upper : c.toNat ≤ 57 := h.2
    show c.toNat - 48 < 10
    omega
  simp [digit?, digitValue?, h]
  exact bound

theorem digits?_of_isDigit {cs : List Char} (h : ∀ c ∈ cs, c.isDigit) (acc : Nat) :
    digits? 10 acc cs = some (Nat.ofDigitChars 10 cs acc) := by
  induction cs generalizing acc with
  | nil => simp [digits?]
  | cons c rest ih =>
    have tail : ∀ d ∈ rest, d.isDigit := fun d m => h d (List.mem_cons_of_mem c m)
    simp [digits?, digit?_of_isDigit (h c List.mem_cons_self), ih tail, Nat.ofDigitChars_cons,
      Nat.mul_comm]

theorem isDigit_toDigits (n : Nat) : ∀ c ∈ Nat.toDigits 10 n, c.isDigit :=
  fun _ m => Nat.isDigit_of_mem_toDigits (by decide) (by decide) m

theorem natural?_toDigits (n : Nat) : natural? 10 (Nat.toDigits 10 n) = some n := by
  simp [natural?, digits?_of_isDigit (isDigit_toDigits n), Nat.ofDigitChars_ten_toDigits,
    Nat.toDigits_ne_nil]

/-- A digit is no sign, so nothing is split off a text that begins with one. -/
theorem splitSign_of_head {cs : List Char} (digit : ∀ c, cs.head? = some c → c.isDigit) :
    splitSign cs = (false, cs) := by
  match cs with
  | [] => rfl
  | c :: rest =>
    have hc := digit c rfl
    unfold splitSign
    split
    · exact absurd hc (by simp_all)
    · exact absurd hc (by simp_all)
    · rfl

theorem splitSign_of_isDigit {cs : List Char} (digits : ∀ c ∈ cs, c.isDigit) :
    splitSign cs = (false, cs) :=
  splitSign_of_head fun c first => digits c (List.mem_of_head? first)

/-- Reading the decimal text of an integer gives the integer back. -/
theorem integer?_render (n : Int) : integer? (render n) = some n := by
  unfold render
  split
  case isTrue negative =>
    have back : -(n.natAbs : Int) = n := by omega
    show (natural? 10 (Nat.toDigits 10 n.natAbs)).map (fun m : Nat => -(m : Int)) = some n
    rw [natural?_toDigits]
    exact congrArg some back
  case isFalse nonnegative =>
    have back : (n.natAbs : Int) = n := by omega
    unfold integer?
    rw [splitSign_of_isDigit (isDigit_toDigits n.natAbs)]
    show (natural? 10 (Nat.toDigits 10 n.natAbs)).map (fun m : Nat => (m : Int)) = some n
    rw [natural?_toDigits]
    exact congrArg some back

end Plc.Numeral
