import Plc.Proofs.Binary.Whole
import Plc.Proofs.Literal.Classify
import Plc.Proofs.Literal.Meaning
import Plc.Proofs.Value.Closed

/-!
# Durations in literals

A duration is written as groups of a number and a unit, under an optional sign. The groups are summed as
LREAL values: each number is rounded when it is read, then its product with the unit, then the sum so
far. The total is a whole number of nanoseconds again, which may be another one than the groups add up
to once more than 53 bits are needed.

Main statements:

* `sumGroups?_spell`: reading groups adds their roundings up.
* `foldl_of_exact`, `exact_of_le`: nothing is lost while every number on the way has 53 significant bits.
* `near_rounded`: what can be lost otherwise.
* `parse_duration`: the whole literal.
-/

namespace Plc.Literal

/-! ## §1 Groups as they are written -/

/-- The units of time. -/
inductive TimeUnit where
  | days | hours | minutes | seconds | millis | micros | nanos
  deriving DecidableEq, Repr

namespace TimeUnit

/-- The letters that stand for a unit. -/
def name : TimeUnit → List Char
  | days => ['D']
  | hours => ['H']
  | minutes => ['M']
  | seconds => ['S']
  | millis => ['M', 'S']
  | micros => ['U', 'S']
  | nanos => ['N', 'S']

/-- A unit in nanoseconds. -/
def weight : TimeUnit → Nat
  | days => 24 * 60 * 60 * 1000000000
  | hours => 60 * 60 * 1000000000
  | minutes => 60 * 1000000000
  | seconds => 1000000000
  | millis => 1000000
  | micros => 1000
  | nanos => 1

theorem unitNanos?_name (u : TimeUnit) : unitNanos? u.name = some (u.weight : Int) := by
  cases u <;> rfl

theorem weight_pos (u : TimeUnit) : 0 < u.weight := by
  cases u <;> decide

theorem weight_le (u : TimeUnit) : u.weight ≤ 2 ^ 53 := by
  cases u <;> decide

end TimeUnit

/-- A number in decimal digits, and its unit. -/
structure Group where
  digits : List Char
  unit : TimeUnit
  isDigit : ∀ c ∈ digits, c.isDigit = true
  ne_nil : digits ≠ []

namespace Group

/-- A number as it is rendered, and its unit. -/
def ofNat (n : Nat) (unit : TimeUnit) : Group where
  digits := Nat.toDigits 10 n
  unit := unit
  isDigit := Numeral.isDigit_toDigits n
  ne_nil := Nat.toDigits_ne_nil

def spell (g : Group) : List Char := g.digits ++ g.unit.name

def count (g : Group) : Nat := Nat.ofDigitChars 10 g.digits 0

/-- The nanoseconds that the group stands for. -/
def nanos (g : Group) : Nat := g.count * g.unit.weight

end Group

/-- Groups one after the other. -/
def spell (groups : List Group) : List Char := groups.flatMap Group.spell

/-- The nanoseconds that the groups add up to. -/
def total (groups : List Group) : Nat := (groups.map Group.nanos).sum

/-- The sign of a duration. -/
inductive Sign where
  | absent | plus | minus
  deriving DecidableEq, Repr

namespace Sign

def spell : Sign → List Char
  | absent => []
  | plus => ['+']
  | minus => ['-']

def isMinus : Sign → Bool
  | minus => true
  | absent | plus => false

end Sign

/-! ## §2 Groups as they are summed -/

/-- The nearest number of 53 significant bits, a tie going to the even one. -/
def nearest (n : Nat) : Nat := Format.double.round n 1

/-- A sum, continued with one more group. -/
def addGroup (sum : Nat) (g : Group) : Nat :=
  nearest (sum + nearest (nearest g.count * g.unit.weight))

/-- What the groups add up to on the way that they are read. -/
def rounded (groups : List Group) : Nat := groups.foldl addGroup 0

variable {groups : List Group}

theorem nearest_nearest (n : Nat) : nearest (nearest n) = nearest n := Format.round_round ..

theorem nearest_weight (u : TimeUnit) : nearest u.weight = u.weight :=
  Format.round_of_aligned (Format.aligned_of_le u.weight_le)

/-! ## §3 Reading one group -/

/-- Whatever comes next, a group begins with a digit. -/
theorem head?_spell {c : Char} (first : (spell groups).head? = some c) : c.isDigit = true := by
  cases groups with
  | nil => cases first
  | cons g rest =>
    have starts : (spell (g :: rest)).head? = some (g.digits.head g.ne_nil) := by
      show (g.digits ++ g.unit.name ++ spell rest).head? = _
      rw [List.append_assoc, List.head?_append, List.head?_eq_some_head g.ne_nil]
      rfl
    rw [starts] at first
    rw [← Option.some.inj first]
    exact g.isDigit _ (List.head_mem g.ne_nil)

theorem Group.isAmountChar (g : Group) : ∀ c ∈ g.digits, isAmountChar c = true := by
  intro c mem
  unfold Literal.isAmountChar
  rw [g.isDigit c mem]
  rfl

theorem Group.filter_digits (g : Group) : g.digits.filter (· ≠ '_') = g.digits := by
  apply List.filter_eq_self.mpr
  intro c mem
  refine decide_eq_true ?_
  rintro rfl
  cases g.isDigit '_' mem

theorem TimeUnit.isAlpha (u : TimeUnit) : ∀ c ∈ u.name, c.isAlpha = true := by
  cases u <;> simp [name]

theorem TimeUnit.not_isAmountChar (u : TimeUnit) (rest : List Char) :
    ∀ c, (u.name ++ rest).head? = some c → isAmountChar c = false := by
  intro c first
  cases u <;> cases first <;> rfl

theorem isAlpha_of_isDigit (c : Char) (digit : c.isDigit = true) : c.isAlpha = false := by
  have most : c.toNat ≤ 57 := (Char.isDigit_iff_toNat.mp digit).2
  rw [Bool.eq_false_iff]
  intro alpha
  rcases Bool.or_eq_true_iff.mp alpha with upper | lower
  · have least : 65 ≤ c.toNat := (of_decide_eq_true upper).1
    omega
  · have least : 97 ≤ c.toNat := of_decide_eq_true (Bool.and_eq_true_iff.mp lower).1
    omega

theorem ne_underscore_of_isDigit (c : Char) (digit : c.isDigit = true) : decide (c = '_') = false := by
  refine decide_eq_false ?_
  rintro rfl
  cases digit

/-- A group takes its own part of the text. -/
theorem sumGroups?_cons (sum : Double) (g : Group) (groups : List Group) :
    sumGroups? sum (spell (g :: groups)) =
      sumGroups? (sum + .ofInt g.count * .ofInt g.unit.weight) (spell groups) := by
  have text : spell (g :: groups) = g.digits ++ (g.unit.name ++ spell groups) :=
    List.append_assoc ..
  -- Digits, letters and digits again: the text falls apart where one kind of character ends.
  obtain ⟨amount, afterAmount⟩ :=
    Text.span_append g.isAmountChar (g.unit.not_isAmountChar (spell groups))
  have noLetter (c : Char) (first : (spell groups).head? = some c) : c.isAlpha = false :=
    isAlpha_of_isDigit c (head?_spell first)
  obtain ⟨unit, afterUnit⟩ := Text.span_append g.unit.isAlpha noLetter
  have noUnderscore (c : Char) (first : (spell groups).head? = some c) : decide (c = '_') = false :=
    ne_underscore_of_isDigit c (head?_spell first)
  have afterGroup : ([] ++ spell groups).dropWhile (· = '_') = spell groups :=
    (Text.span_append (fun _ none => absurd none List.not_mem_nil) noUnderscore).2
  rw [List.nil_append] at afterGroup
  have read : (Binary.ofChars? g.digits : Option Double) = some (.ofInt g.count) :=
    Binary.ofChars?_digits g.isDigit g.ne_nil
  rw [text, sumGroups?]
  rw [if_neg (by simp [g.ne_nil]), dif_neg (by simp [amount, g.ne_nil])]
  simp only [amount, afterAmount, unit, afterUnit, afterGroup, g.filter_digits, read,
    g.unit.unitNanos?_name]

/-! ## §4 Reading all of them -/

theorem double_scale_le : Format.double.scale ≤ Format.double.span := by decide

theorem weight_lt_top (u : TimeUnit) : nearest u.weight < Format.double.top := by
  rw [nearest_weight]
  refine Nat.lt_of_le_of_lt u.weight_le ?_
  exact Nat.pow_lt_pow_right (by decide) (by decide)

/-- A sum that is whole stays so. -/
theorem add_group {sum : Nat} (kept : nearest sum = sum) (g : Group) :
    (.ofInt sum + .ofInt g.count * .ofInt g.unit.weight : Double) = .ofInt (addGroup sum g : Nat) := by
  have weight := nearest_weight g.unit
  have pos : 0 < nearest g.unit.weight := weight.symm ▸ g.unit.weight_pos
  have product : (.ofInt g.count * .ofInt g.unit.weight : Double) =
      .ofInt (nearest g.count * nearest g.unit.weight : Nat) :=
    Binary.mul_ofInt double_scale_le g.count pos (weight_lt_top g.unit)
  have added : (.ofInt sum + .ofInt (nearest g.count * g.unit.weight : Nat) : Double) =
      .ofInt (nearest sum + nearest (nearest g.count * g.unit.weight) : Nat) :=
    Binary.add_ofInt double_scale_le sum _
  rw [product, weight, added, kept]
  exact (Binary.ofInt_round _).symm

/-- Reading adds the groups up, each after its own roundings: the induction is on the groups, and a sum
that has been rounded goes through the next addition as it is. -/
theorem sumGroups?_spell (groups : List Group) {sum : Nat} (kept : nearest sum = sum) :
    sumGroups? (.ofInt sum) (spell groups) = some (.ofInt (groups.foldl addGroup sum : Nat)) := by
  induction groups generalizing sum with
  | nil =>
    rw [show spell [] = [] from rfl, sumGroups?]
    rfl
  | cons g rest ih =>
    rw [sumGroups?_cons, add_group kept, List.foldl_cons]
    exact ih (nearest_nearest _)

/-! ## §5 What is lost -/

/-- Every number on the way has 53 significant bits at most. -/
def Exact (sum : Nat) : List Group → Prop
  | [] => True
  | g :: rest => Format.double.Aligned g.count ∧ Format.double.Aligned g.nanos ∧
      Format.double.Aligned (sum + g.nanos) ∧ Exact (sum + g.nanos) rest

theorem addGroup_of_aligned {sum : Nat} {g : Group} (count : Format.double.Aligned g.count)
    (nanos : Format.double.Aligned g.nanos) (next : Format.double.Aligned (sum + g.nanos)) :
    addGroup sum g = sum + g.nanos := by
  have read : nearest g.count = g.count := Format.round_of_aligned count
  have product : nearest (g.count * g.unit.weight) = g.nanos := Format.round_of_aligned nanos
  unfold addGroup
  rw [read, product]
  exact Format.round_of_aligned next

theorem total_cons (g : Group) (rest : List Group) : total (g :: rest) = g.nanos + total rest :=
  List.sum_cons

theorem foldl_of_exact {sum : Nat} (held : Exact sum groups) :
    groups.foldl addGroup sum = sum + total groups := by
  induction groups generalizing sum with
  | nil => rfl
  | cons g rest ih =>
    obtain ⟨count, nanos, next, later⟩ := held
    rw [List.foldl_cons, addGroup_of_aligned count nanos next, ih later, total_cons, Nat.add_assoc]

/-- Up to 2 ^ 53 nanoseconds, which is 104 days, no number on the way is any longer. -/
theorem exact_of_le {sum : Nat} (le : sum + total groups ≤ 2 ^ 53) : Exact sum groups := by
  induction groups generalizing sum with
  | nil => trivial
  | cons g rest ih =>
    rw [total_cons] at le
    have count : g.count ≤ g.nanos := Nat.le_mul_of_pos_right _ g.unit.weight_pos
    refine ⟨?_, ?_, ?_, ih (by omega)⟩
    · exact Format.aligned_of_le (f := .double) (show g.count ≤ 2 ^ 53 by omega)
    · exact Format.aligned_of_le (f := .double) (show g.nanos ≤ 2 ^ 53 by omega)
    · exact Format.aligned_of_le (f := .double) (show sum + g.nanos ≤ 2 ^ 53 by omega)

/-- Two roundings lead to the nanoseconds of one group. -/
theorem near_group (g : Group) :
    Format.double.Near 2 g.nanos (nearest (nearest g.count * g.unit.weight)) :=
  ((Format.Near.one_round .double g.count).mul_right g.unit.weight).round

theorem near_foldl {steps n sum : Nat} (near : Format.double.Near steps n sum)
    (le : 2 ≤ steps) (groups : List Group) :
    Format.double.Near (steps + groups.length) (n + total groups) (groups.foldl addGroup sum) := by
  -- The induction is on the groups. A group alone has gone through two roundings, so a sum that has gone
  -- through two or more of them is the looser bound of the two.
  induction groups generalizing steps n sum with
  | nil => exact near
  | cons g rest ih =>
    have group : Format.double.Near steps g.nanos (nearest (nearest g.count * g.unit.weight)) :=
      (near_group g).mono le
    have next := ih (near.add group).round (by omega)
    rw [total_cons, ← Nat.add_assoc, List.length_cons, List.foldl_cons]
    rw [Nat.add_right_comm steps 1] at next
    exact next

/-- The first addition is to zero, and rounds nothing. -/
theorem near_rounded (g : Group) (rest : List Group) :
    Format.double.Near (rest.length + 2) (total (g :: rest)) (rounded (g :: rest)) := by
  have first : addGroup 0 g = nearest (nearest g.count * g.unit.weight) := by
    unfold addGroup
    rw [Nat.zero_add, nearest_nearest]
  unfold rounded
  rw [total_cons, List.foldl_cons, first, Nat.add_comm rest.length]
  exact near_foldl (near_group g) (Nat.le_refl 2) rest

/-! ## §6 The whole literal -/

/-- The text of a duration. -/
def durationText (sign : Sign) (groups : List Group) : List Char :=
  'T' :: '#' :: (sign.spell ++ spell groups)

theorem mem_spell {c : Char} (mem : c ∈ spell groups) :
    c.isDigit = true ∨ c ∈ ['D', 'H', 'M', 'S', 'U', 'N'] := by
  obtain ⟨g, _, mem⟩ := List.mem_flatMap.mp mem
  rcases List.mem_append.mp mem with digit | letter
  · exact Or.inl (g.isDigit c digit)
  · have each : ∀ c ∈ g.unit.name, c ∈ ['D', 'H', 'M', 'S', 'U', 'N'] := by
      cases g.unit <;> simp [TimeUnit.name]
    exact Or.inr (each c letter)

/-- The text is read as it stands: it has neither blanks nor lower-case letters. -/
theorem plain_durationText {sign : Sign} {c : Char} (mem : c ∈ durationText sign groups) :
    Text.isBlank c = false ∧ ¬(97 ≤ c.toNat ∧ c.toNat ≤ 122) := by
  have known : c.isDigit = true ∨ c ∈ ['D', 'H', 'M', 'S', 'U', 'N', 'T', '#', '+', '-'] := by
    simp only [durationText, List.mem_cons, List.mem_append] at mem
    rcases mem with rfl | rfl | sign_mem | group_mem
    · exact Or.inr (by decide)
    · exact Or.inr (by decide)
    · have each : ∀ c ∈ sign.spell, c ∈ ['D', 'H', 'M', 'S', 'U', 'N', 'T', '#', '+', '-'] := by
        cases sign <;> simp [Sign.spell]
      exact Or.inr (each c sign_mem)
    · exact (mem_spell group_mem).imp_right fun letter =>
        List.mem_append_left ['T', '#', '+', '-'] letter
  rcases known with digit | other
  · have most : c.toNat ≤ 57 := (Char.isDigit_iff_toNat.mp digit).2
    exact ⟨Text.isBlank_of_isDigit digit, by omega⟩
  · simp only [List.mem_cons, List.not_mem_nil, or_false] at other
    rcases other with rfl | rfl | rfl | rfl | rfl | rfl | rfl | rfl | rfl | rfl <;> decide

theorem splitSign_spell (sign : Sign) (groups : List Group) :
    Numeral.splitSign (sign.spell ++ spell groups) = (sign.isMinus, spell groups) := by
  cases sign with
  | plus | minus => rfl
  | absent => exact Numeral.splitSign_of_head fun c first => head?_spell first

theorem nearest_zero : nearest 0 = 0 := Format.round_of_aligned (Format.aligned_of_le (Nat.zero_le _))

theorem nearest_rounded (groups : List Group) : nearest (rounded groups) = rounded groups := by
  -- The last thing that is done to a sum is to round it.
  have kept (sum : Nat) (first : nearest sum = sum) :
      nearest (groups.foldl addGroup sum) = groups.foldl addGroup sum := by
    induction groups generalizing sum with
    | nil => exact first
    | cons g rest ih => exact ih _ (nearest_nearest _)
  exact kept 0 nearest_zero

/-- The total is held at the limit of 64 bits, which it can only reach by rounding up to it. -/
theorem duration?_spell (sign : Sign) (some : groups ≠ []) :
    duration? (sign.spell ++ spell groups) =
      if rounded groups ≤ 2 ^ 63 then
        Option.some (.saturate (Binary.signed sign.isMinus (rounded groups)))
      else none := by
  have visible : Text.trim (sign.spell ++ spell groups) = sign.spell ++ spell groups :=
    Text.trim_of_notBlank fun c mem =>
      (plain_durationText (List.mem_cons_of_mem _ (List.mem_cons_of_mem _ mem))).1
  have written : spell groups ≠ [] := by
    obtain ⟨g, rest, rfl⟩ := List.exists_cons_of_ne_nil some
    intro empty
    exact g.ne_nil (List.append_eq_nil_iff.mp (List.append_eq_nil_iff.mp empty).1).1
  have zero : (.zero false : Double) = .ofInt (0 : Nat) := by
    rw [Binary.ofInt_natCast, Nat.zero_mul, Binary.ofRatio_zero]
  have sum : sumGroups? (.ofInt (0 : Nat)) (spell groups) = Option.some (.ofInt (rounded groups : Nat)) :=
    sumGroups?_spell groups nearest_zero
  have whole := Binary.nearestInt?_ofInt double_scale_le sign.isMinus (rounded groups)
  rw [show Format.double.round (rounded groups) 1 = rounded groups from nearest_rounded groups] at whole
  unfold duration?
  simp only [visible, splitSign_spell, if_neg written, zero, sum, whole]
  -- An infinite total is no integer at all, and fails like one that is too large.
  rcases Nat.lt_or_ge (rounded groups) Format.double.top with small | large
  · rw [if_pos small]
    simp only [Binary.natAbs_signed]
  · have beyond : ¬rounded groups ≤ 2 ^ 63 := by
      have bound : 2 ^ 63 < Format.double.top := Nat.pow_lt_pow_right (by decide) (by decide)
      omega
    rw [if_neg (Nat.not_lt.mpr large), if_neg beyond]

/-- What is known of the total of a duration. -/
structure Totals (groups : List Group) (sum : Nat) : Prop where
  of_exact : Exact 0 groups → sum = total groups
  /-- Up to 104 days. -/
  of_le : total groups ≤ 2 ^ 53 → sum = total groups
  /-- Any further group adds one rounding to the two of the first. -/
  near : Format.double.Near (groups.length + 1) (total groups) sum

theorem totals_rounded (some : groups ≠ []) : Totals groups (rounded groups) := by
  have of_exact (held : Exact 0 groups) : rounded groups = total groups := by
    unfold rounded
    rw [foldl_of_exact held, Nat.zero_add]
  refine ⟨of_exact, fun le => of_exact (exact_of_le (by omega)), ?_⟩
  obtain ⟨g, rest, rfl⟩ := List.exists_cons_of_ne_nil some
  exact near_rounded g rest

/-- A duration literal is read as its groups are summed, and fails if the total is beyond 64 bits. -/
theorem parse_duration (sign : Sign) (some : groups ≠ []) (profile : LiteralProfile) :
    Totals groups (rounded groups) ∧
      (∀ d : Duration, d.nanos = Binary.signed sign.isMinus (rounded groups) →
        parse (durationText sign groups) profile = .ok (.ofDuration d)) ∧
      (2 ^ 63 < rounded groups → parse (durationText sign groups) profile = .error .failed) := by
  have seen : Text.upper (Text.trim (durationText sign groups)) = durationText sign groups := by
    rw [Text.trim_of_notBlank fun c mem => (plain_durationText mem).1,
      Text.upper_of_notLower fun c mem => (plain_durationText mem).2]
  have parts := classify_duration seen
  have read := duration?_spell sign some
  refine ⟨totals_rounded some, ?_, ?_⟩
  · intro d nanos
    -- The duration itself witnesses that the total is in range.
    have within : rounded groups ≤ 2 ^ 63 := by
      have size := Binary.natAbs_signed sign.isMinus (rounded groups)
      rw [← nanos] at size
      have least := d.least_le
      have limit := d.lt_limit
      omega
    have held : Duration.saturate (Binary.signed sign.isMinus (rounded groups)) = d := by
      rw [← nanos]
      exact Duration.ext (Duration.nanos_saturate d.least_le d.lt_limit)
    refine parse_of_value? parts ?_
    rw [if_pos within, held] at read
    show (duration? (sign.spell ++ spell groups)).map (Value.zero .time).setDuration = _
    rw [read, Option.map_some, Value.setDuration_zero]
  · intro beyond
    rw [if_neg (Nat.not_le.mpr beyond)] at read
    refine parse_of_none parts ?_
    show (duration? (sign.spell ++ spell groups)).map (Value.zero .time).setDuration = _
    rw [read]
    rfl

/-- The least duration, written with a group of each unit. -/
theorem parse_duration_least :
    parse "T#-106751D23H47M16S854MS775US808NS".toList {} = .ok (.ofDuration (.saturate (-2 ^ 63))) := by
  have groups : ∃ groups : List Group, groups ≠ [] ∧ rounded groups = 2 ^ 63 ∧
      durationText .minus groups = "T#-106751D23H47M16S854MS775US808NS".toList :=
    ⟨[.ofNat 106751 .days, .ofNat 23 .hours, .ofNat 47 .minutes, .ofNat 16 .seconds, .ofNat 854 .millis,
      .ofNat 775 .micros, .ofNat 808 .nanos], List.cons_ne_nil _ _, by decide +kernel, by decide +kernel⟩
  obtain ⟨groups, some, sum, text⟩ := groups
  obtain ⟨_, read, _⟩ := parse_duration .minus some {}
  rw [← text]
  apply read
  rw [sum]
  decide

/-- The first number after 2 ^ 53 takes a bit too many, and comes out as another one. -/
theorem parse_duration_ne_total :
    ¬∀ (sign : Sign) (groups : List Group) (profile : LiteralProfile) (d : Duration), groups ≠ [] →
      d.nanos = Binary.signed sign.isMinus (total groups) →
        parse (durationText sign groups) profile = .ok (.ofDuration d) := by
  intro always
  have parsed : parse "T#9007199254740993NS".toList {} =
      .ok (.ofDuration (.saturate 9007199254740992)) := by decide +kernel
  have claimed := always .absent [.ofNat 9007199254740993 .nanos] {} (.saturate 9007199254740993)
    (List.cons_ne_nil _ _) (by decide +kernel)
  rw [show durationText .absent [.ofNat 9007199254740993 .nanos] = "T#9007199254740993NS".toList from
    by decide +kernel, parsed] at claimed
  exact absurd claimed (by decide)

end Plc.Literal
