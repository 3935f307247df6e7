import Plc.Numeral.Checked

/-!
# Durations

A duration is a count of nanoseconds in the range of a 64-bit signed integer. A result outside the
range is held at the nearer limit (`saturate`), reduced modulo the range (`wrap`), or an overflow, at which
the program stops (`ofChecked?`).
-/

namespace Plc

/-- A signed count of nanoseconds that fits 64 bits. -/
structure Duration where
  nanos : Int
  least_le : -2 ^ 63 ≤ nanos
  lt_limit : nanos < 2 ^ 63
  deriving DecidableEq

namespace Duration

/-! ## §1 Making durations -/

/-- The duration nearest to a count of nanoseconds. -/
def saturate (nanos : Int) : Duration where
  nanos := max (-2 ^ 63) (min (2 ^ 63 - 1) nanos)
  least_le := by omega
  lt_limit := by omega

/-- The duration congruent to a count of nanoseconds modulo `2 ^ 64`. -/
def wrap (nanos : Int) : Duration where
  nanos := nanos.bmod (2 ^ 64)
  least_le := by have := Int.le_bmod (x := nanos) (m := 2 ^ 64) (by decide); omega
  lt_limit := by have := Int.bmod_lt (x := nanos) (m := 2 ^ 64) (by decide); omega

/-- The duration that a reckoning has come to. There is none where the reckoning has overflowed. -/
def ofChecked? (nanos : Checked) : Option Duration := do
  let n ← nanos.value?
  if fits : Checked.Fits n then some ⟨n, fits.1, fits.2⟩ else none

def zero : Duration := saturate 0

instance : Inhabited Duration := ⟨zero⟩

def ofMicros (micros : Int) : Duration := saturate (micros * 1000)
def ofMillis (millis : Int) : Duration := saturate (millis * 1000000)
def ofSeconds (seconds : Int) : Duration := saturate (seconds * 1000000000)

@[ext] theorem ext {a b : Duration} (h : a.nanos = b.nanos) : a = b := by
  cases a; cases b; simp_all

theorem nanos_saturate {n : Int} (least : -2 ^ 63 ≤ n) (limit : n < 2 ^ 63) :
    (saturate n).nanos = n := by
  show max (-2 ^ 63) (min (2 ^ 63 - 1) n) = n
  omega

theorem fits (d : Duration) : Checked.Fits d.nanos := ⟨d.least_le, d.lt_limit⟩

/-- What is wrapped is known from its range and from what it is modulo `2 ^ 64`. -/
theorem nanos_wrap_eq {m n : Int} (fits : Checked.Fits m) (period : 2 ^ 64 ∣ m - n) :
    (wrap n).nanos = m := by
  obtain ⟨least, limit⟩ := fits
  exact (Int.bmod_eq_iff (by decide)).mpr ⟨by omega, by omega, period⟩

theorem nanos_wrap_of_fits {n : Int} (fits : Checked.Fits n) : (wrap n).nanos = n :=
  nanos_wrap_eq fits (by rw [Int.sub_self]; exact Int.dvd_zero _)

theorem wrap_nanos (d : Duration) : wrap d.nanos = d := ext (nanos_wrap_of_fits d.fits)

/-- Sums may be wrapped on the way. -/
theorem wrap_wrap_add (m n : Int) : wrap ((wrap m).nanos + n) = wrap (m + n) :=
  ext Int.bmod_add_bmod

theorem ofChecked?_eq_some_iff {nanos : Checked} {d : Duration} :
    ofChecked? nanos = some d ↔ nanos.Is d.nanos := by
  unfold ofChecked? Checked.Is
  cases nanos.value? with
  | none => exact ⟨nofun, nofun⟩
  | some n =>
    constructor
    · intro same
      obtain ⟨fits, made⟩ := Option.dite_none_right_eq_some.mp same
      obtain rfl := Option.some.inj made
      rfl
    · intro same
      obtain rfl := Option.some.inj same
      exact dif_pos d.fits

theorem nanos_ofMillis (millis : Int) :
    (ofMillis millis).nanos = max (-2 ^ 63) (min (2 ^ 63 - 1) (millis * 1000000)) := rfl

/-! ## §2 Readings in coarser units -/

/-- Whole microseconds, toward zero. -/
def micros (d : Duration) : Int := d.nanos.tdiv 1000

/-- Whole milliseconds, toward zero. -/
def millis (d : Duration) : Int := d.nanos.tdiv 1000000

/-! ## §3 Arithmetic -/

/-- The sum, held at the limits. -/
def add (a b : Duration) : Duration := saturate (a.nanos + b.nanos)

/-- The difference, held at the limits. -/
def sub (a b : Duration) : Duration := saturate (a.nanos - b.nanos)

instance : Add Duration := ⟨add⟩
instance : Sub Duration := ⟨sub⟩

/-- The smaller of two durations. -/
def least (a b : Duration) : Duration := if a.nanos ≤ b.nanos then a else b

theorem nanos_sub (a b : Duration) :
    (a - b).nanos = max (-2 ^ 63) (min (2 ^ 63 - 1) (a.nanos - b.nanos)) := rfl

theorem nanos_least (a b : Duration) : (a.least b).nanos = min a.nanos b.nanos := by
  unfold least
  split <;> omega

@[simp] theorem nanos_zero : zero.nanos = 0 := rfl

/-- Differences that are held at the limits keep the order of the readings. -/
theorem sub_mono (start : Duration) {now later : Duration} (le : now.nanos ≤ later.nanos) :
    (now - start).nanos ≤ (later - start).nanos := by
  rw [nanos_sub, nanos_sub]
  omega

/-- The duration without what it has beyond a multiple of `resolution`, rounded down in steps of 64 bits. The
difference may overflow, and there is no duration then. A resolution that is not positive leaves `d` as it
is. -/
def truncateTo? (d resolution : Duration) : Option Duration :=
  if resolution.nanos ≤ 0 then some d
  else ofChecked? (.ofInt d.nanos - .ofInt d.nanos % .ofInt resolution.nanos)

end Duration

end Plc
