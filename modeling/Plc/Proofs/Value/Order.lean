import Plc.Operator.Relation
import Plc.Proofs.Binary.Order
import Plc.Proofs.Value.Closed

/-!
# The order of elementary values

Two values are compared in one of three ways: two strings by their texts, two integers exactly, and any
other pair as LREAL values, to which integers are rounded and for which a string is zero. The three fit
together. Every value but not-a-number has a *position*: a place among the LREAL values, and a *reading*
that only values of the same kind take notice of. All comparisons are by place first and by reading where
the places are the same, because rounding keeps the order of integers.

So "less" is a strict partial order, whatever values are mixed. "Equal" is not transitive: at one place a
value of another kind is equal to both of two values that are told apart by their readings.

Main statements:

* `Number.compare?_eq`, `Value.order?_eq`: a comparison is the comparison of positions.
* `Position.order?_trans`, `Position.order?_lt_iff`: positions are partially ordered.
* `Value.order?_trans`, `Value.order?_eq_iff_not_blurs`: what follows from two comparisons for a third one.
-/

namespace Plc

/-- Any of the three outcomes of a comparison is passed on, in a type that is ordered. -/
theorem compare_trans {α : Type} [Ord α] [Std.TransOrd α] {a b c : α} {w : Ordering}
    (first : compare a b = w) (second : compare b c = w) : compare a c = w := by
  cases w with
  | lt => exact Std.TransCmp.lt_trans first second
  | eq => exact Std.TransCmp.eq_trans first second
  | gt => exact Std.TransCmp.gt_trans first second

/-! ## §1 Readings -/

/-- What a value is read as when it is compared with another one of its kind. -/
inductive Reading where
  | text (content : String)
  | integer (n : Int)
  | real
  deriving DecidableEq

namespace Reading

/-- Texts are ordered by their characters and integers by size. A reading does not tell reals apart, nor
values of different kinds. -/
def order : Reading → Reading → Ordering
  | text s, text t => compare s t
  | integer m, integer n => compare m n
  | _, _ => .eq

variable {p q r : Reading} {w : Ordering}

@[simp] theorem order_self (p : Reading) : p.order p = .eq := by
  cases p <;> simp [order]

@[simp] theorem order_text {s t : String} : (text s).order (text t) = .eq ↔ s = t :=
  Std.LawfulEqOrd.compare_eq_iff_eq

@[simp] theorem order_integer {m n : Int} : (integer m).order (integer n) = .eq ↔ m = n :=
  compare_eq_iff_eq

theorem order_swap (p q : Reading) : q.order p = (p.order q).swap := by
  cases p <;> cases q <;> first | exact Std.OrientedOrd.eq_swap | rfl

/-- Only two texts, or two integers, are told apart by their readings. -/
theorem order_eq_iff (differ : w ≠ .eq) : p.order q = w ↔
    (∃ s t, p = text s ∧ q = text t ∧ compare s t = w) ∨
      ∃ m n, p = integer m ∧ q = integer n ∧ compare m n = w := by
  cases p <;> cases q <;> simp [order, Ne.symm differ]

theorem order_trans (differ : w ≠ .eq) (first : p.order q = w) (second : q.order r = w) :
    p.order r = w := by
  rw [order_eq_iff differ] at first second ⊢
  rcases first with ⟨s, t, rfl, rfl, before⟩ | ⟨m, n, rfl, rfl, before⟩
  · rcases second with ⟨_, u, same, rfl, after⟩ | ⟨_, _, other, _, _⟩
    · cases same
      exact Or.inl ⟨s, u, rfl, rfl, compare_trans before after⟩
    · cases other
  · rcases second with ⟨_, _, other, _, _⟩ | ⟨_, k, same, rfl, after⟩
    · cases other
    · cases same
      exact Or.inr ⟨m, k, rfl, rfl, compare_trans before after⟩

end Reading

/-! ## §2 Positions -/

/-- Where a value stands in the order: its place among the LREAL values, counted in quanta, and its
reading. -/
structure Position where
  place : Int
  reading : Reading

namespace Position

/-- First by place, then by reading. -/
def order (p q : Position) : Ordering := (compare p.place q.place).then (p.reading.order q.reading)

/-- What has no position has no order. -/
def order? : Option Position → Option Position → Option Ordering
  | some p, some q => some (p.order q)
  | _, _ => none

variable {p q r : Position} {x y z : Option Position} {w : Ordering}

theorem order_eq_iff (differ : w ≠ .eq) : p.order q = w ↔
    compare p.place q.place = w ∨ p.place = q.place ∧ p.reading.order q.reading = w := by
  rw [← compare_eq_iff_eq (a := p.place)]
  unfold order
  cases compare p.place q.place <;> simp [Ne.symm differ]

theorem order_eq_eq_iff : p.order q = .eq ↔ p.place = q.place ∧ p.reading.order q.reading = .eq := by
  simp [order, Ordering.then_eq_eq]

@[simp] theorem order_self (p : Position) : p.order p = .eq := by simp [order]

theorem order_swap (p q : Position) : q.order p = (p.order q).swap := by
  unfold order
  rw [Ordering.swap_then, ← Reading.order_swap, ← Std.OrientedOrd.eq_swap]

/-- Either place is passed on by a strict step and kept by the other one, or both steps are at one place. -/
theorem order_trans (differ : w ≠ .eq) (first : p.order q = w) (second : q.order r = w) :
    p.order r = w := by
  rw [order_eq_iff differ] at first second ⊢
  rcases first with strict | ⟨place, reading⟩
  · rcases second with strict' | ⟨place', _⟩
    · exact Or.inl (compare_trans strict strict')
    · exact Or.inl (place' ▸ strict)
  · rcases second with strict' | ⟨place', reading'⟩
    · exact Or.inl (place ▸ strict')
    · exact Or.inr ⟨place.trans place', Reading.order_trans differ reading reading'⟩

theorem order?_eq_some_iff : order? x y = some w ↔ ∃ p q, x = some p ∧ y = some q ∧ p.order q = w := by
  cases x <;> cases y <;> simp [order?]

/-- Nothing is less or greater than itself. -/
theorem order?_self_ne (differ : w ≠ .eq) (x : Option Position) : order? x x ≠ some w := by
  cases x with
  | none => simp [order?]
  | some p => simp [order?, Ne.symm differ]

theorem order?_swap (x y : Option Position) : order? y x = (order? x y).map .swap := by
  cases x with
  | none => cases y <;> rfl
  | some p =>
    cases y with
    | none => rfl
    | some q => exact congrArg some (order_swap p q)

/-- What is less is what the other is greater than. -/
theorem order?_lt_iff : order? x y = some .lt ↔ order? y x = some .gt := by
  rw [order?_swap y x]
  cases order? y x with
  | none => simp
  | some order => cases order <;> simp

theorem order?_trans (differ : w ≠ .eq) (first : order? x y = some w) (second : order? y z = some w) :
    order? x z = some w := by
  obtain ⟨p, q, rfl, rfl, before⟩ := order?_eq_some_iff.mp first
  obtain ⟨_, r, same, rfl, after⟩ := order?_eq_some_iff.mp second
  cases same
  exact congrArg some (order_trans differ before after)

end Position

/-! ## §3 Numbers -/

namespace Number

/-- An integer is read as itself. -/
def reading : Number → Reading
  | int n => .integer n.toInt
  | real _ => .real

/-- The place of the nearest LREAL value, which not-a-number has not. -/
def position? (a : Number) : Option Position := a.toDouble.rank.map (⟨·, a.reading⟩)

variable {a b c : Number} {w : Ordering}

theorem position?_int (n : Wide) :
    (int n).position? = some ⟨Format.double.place n.toInt, .integer n.toInt⟩ := by
  unfold position? toDouble
  rw [Binary.rank_ofInt_eq]
  rfl

theorem position?_real (x : Double) : (real x).position? = x.rank.map (⟨·, .real⟩) := rfl

/-- Two integers may come to one place, and are told apart there. -/
theorem compare_integers (m n : Int) :
    Position.order ⟨Format.double.place m, .integer m⟩ ⟨Format.double.place n, .integer n⟩ =
      compare m n := by
  rcases Int.lt_trichotomy m n with lt | rfl | gt
  · have places : Format.double.place m ≤ Format.double.place n := Format.place_mono (Int.le_of_lt lt)
    have strict : compare m n = .lt := compare_lt_iff_lt.mpr lt
    rw [strict, Position.order_eq_iff (by decide), compare_lt_iff_lt]
    exact (Int.lt_or_eq_of_le places).imp_right fun same => ⟨same, strict⟩
  · simp
  · have places : Format.double.place n ≤ Format.double.place m := Format.place_mono (Int.le_of_lt gt)
    have strict : compare m n = .gt := compare_gt_iff_gt.mpr gt
    rw [strict, Position.order_eq_iff (by decide), compare_gt_iff_gt]
    exact (Int.lt_or_eq_of_le places).imp_right fun same => ⟨same.symm, strict⟩

/-- As LREAL values, two numbers stand in the order of their positions if their readings do not count. -/
theorem compare?_of_apart (apart : a.reading.order b.reading = .eq) :
    a.toDouble.compare? b.toDouble = Position.order? a.position? b.position? := by
  unfold Binary.compare? position?
  cases a.toDouble.rank <;> cases b.toDouble.rank <;> simp [Position.order?, Position.order, apart]

/-- Numbers are compared by their positions. -/
theorem compare?_eq (a b : Number) : a.compare? b = Position.order? a.position? b.position? := by
  cases a with
  | int m =>
    cases b with
    | int n =>
      rw [position?_int, position?_int]
      exact congrArg some (compare_integers m.toInt n.toInt).symm
    | real y => exact compare?_of_apart (a := int m) (b := real y) rfl
  | real x => exact compare?_of_apart (a := real x) rfl

theorem compare?_swap (a b : Number) : b.compare? a = (a.compare? b).map .swap := by
  rw [compare?_eq, compare?_eq, Position.order?_swap]

theorem compare?_lt_iff : a.compare? b = some .lt ↔ b.compare? a = some .gt := by
  rw [compare?_eq, compare?_eq]
  exact Position.order?_lt_iff

/-- A strict order, either way. -/
theorem compare?_trans (differ : w ≠ .eq) (first : a.compare? b = some w)
    (second : b.compare? c = some w) : a.compare? c = some w := by
  rw [compare?_eq] at first second ⊢
  exact Position.order?_trans differ first second

theorem compare?_self_ne (differ : w ≠ .eq) (a : Number) : a.compare? a ≠ some w := by
  rw [compare?_eq]
  exact Position.order?_self_ne differ _

/-- Equal numbers of one kind, both integers or both reals, stand in the same order to every other one. -/
theorem compare?_congr (equal : a.compare? b = some .eq) (kind : a.isReal = b.isReal) (c : Number) :
    a.compare? c = b.compare? c := by
  have positions : a.position? = b.position? := by
    cases a with
    | int m =>
      cases b with
      | int n =>
        have same : m.toInt = n.toInt := compare_eq_iff_eq.mp (Option.some.inj equal)
        rw [position?_int, position?_int, same]
      | real y => cases kind
    | real x =>
      cases b with
      | int n => cases kind
      | real y =>
        have ranks : x.rank = y.rank := Binary.rank_eq_of_compare? equal
        rw [position?_real, position?_real, ranks]
  rw [compare?_eq, compare?_eq, positions]

end Number

/-! ## §4 Values -/

namespace Value

/-- A string is read as its text, and all else by its numeric view. -/
def reading (v : Value) : Reading :=
  match v.text? with
  | some s => .text s.content
  | none => v.number.reading

/-- A string stands at zero. -/
def position? (v : Value) : Option Position :=
  match v.text? with
  | some s => some ⟨0, .text s.content⟩
  | none => v.number.position?

variable {v a b c : Value} {w : Ordering}

theorem number_of_text? {s : CharString} (found : v.text? = some s) : v.number = .int 0 := by
  have none : v.number? = none := by
    by_contra numeric
    obtain ⟨n, read⟩ := Option.ne_none_iff_exists'.mp numeric
    have plain : v.text? = none := Layout.text?_of_number? read
    rw [found] at plain
    cases plain
  unfold number
  rw [none]
  rfl

theorem text?_of_reading {s : String} (text : v.reading = .text s) : ∃ t, v.text? = some t ∧ t.content = s := by
  unfold reading at text
  split at text
  case h_1 t found => exact ⟨t, found, Reading.text.inj text⟩
  case h_2 => cases number : v.number <;> rw [number] at text <;> cases text

/-- Beside a number, a string stands where the integer zero stands: no other integer has this place. -/
theorem order?_text (s : String) (b : Number) :
    Position.order? (some ⟨0, .text s⟩) b.position? = (Number.int 0).compare? b := by
  have zero : (Number.int 0).position? = some ⟨0, .integer 0⟩ := by
    rw [Number.position?_int, show (0 : Wide).toInt = 0 from rfl, Format.place_zero]
  rw [Number.compare?_eq, zero]
  cases b with
  | int n =>
    rw [Number.position?_int]
    apply congrArg some
    by_cases same : n.toInt = 0
    case pos => simp [same, Format.place_zero, Position.order, Reading.order]
    case neg =>
      have elsewhere : compare 0 (Format.double.place n.toInt) ≠ .eq := by
        rw [Ne, compare_eq_iff_eq]
        exact fun place => same (Format.place_eq_zero_iff.mp place.symm)
      unfold Position.order
      cases apart : compare 0 (Format.double.place n.toInt) with
      | eq => exact absurd apart elsewhere
      | lt => rfl
      | gt => rfl
  | real x =>
    rw [Number.position?_real]
    cases x.rank <;> rfl

/-- Values are compared by their positions. -/
theorem order?_eq (a b : Value) : a.order? b = Position.order? a.position? b.position? := by
  unfold order? position?
  cases first : a.text? with
  | some s =>
    cases second : b.text? with
    | some t => simp [Position.order?, Position.order, Reading.order]
    | none =>
      dsimp only
      rw [number_of_text? first, order?_text]
  | none =>
    cases second : b.text? with
    | some t =>
      dsimp only
      rw [number_of_text? second, Position.order?_swap, order?_text, ← Number.compare?_swap]
    | none => exact Number.compare?_eq a.number b.number

theorem order?_lt_iff : a.order? b = some .lt ↔ b.order? a = some .gt := by
  rw [order?_eq, order?_eq]
  exact Position.order?_lt_iff

theorem order?_symm (equal : a.order? b = some .eq) : b.order? a = some .eq := by
  rw [order?_eq] at equal ⊢
  rw [Position.order?_swap, equal]
  rfl

/-- A strict order, either way, over values of all kinds. -/
theorem order?_trans (differ : w ≠ .eq) (first : a.order? b = some w) (second : b.order? c = some w) :
    a.order? c = some w := by
  rw [order?_eq] at first second ⊢
  exact Position.order?_trans differ first second

theorem order?_self_ne (differ : w ≠ .eq) (a : Value) : a.order? a ≠ some w := by
  rw [order?_eq]
  exact Position.order?_self_ne differ _

/-! ## §5 Equal values -/

/-- Only not-a-number has no position. -/
theorem exists_position (number : v.toDouble.isNaN = false) : ∃ p, v.position? = some p := by
  unfold position?
  split
  case h_1 s _ => exact ⟨_, rfl⟩
  case h_2 =>
    unfold toDouble at number
    unfold Number.position?
    cases read : v.number.toDouble with
    | nan =>
      rw [read] at number
      cases number
    | infinite => exact ⟨_, rfl⟩
    | finite => exact ⟨_, rfl⟩

theorem order?_self (number : v.toDouble.isNaN = false) : v.order? v = some .eq := by
  obtain ⟨p, position⟩ := exists_position number
  rw [order?_eq, position]
  exact congrArg some p.order_self

theorem reading_of_text? {s : CharString} (found : v.text? = some s) : v.reading = .text s.content := by
  unfold reading
  rw [found]

theorem reading_of_position? {p : Position} (found : v.position? = some p) : v.reading = p.reading := by
  unfold position? at found
  unfold reading
  split at found
  case h_1 s _ =>
    cases found
    rfl
  case h_2 =>
    obtain ⟨place, _, rfl⟩ := Option.map_eq_some_iff.mp found
    rfl

theorem position?_of_text {s : String} (text : v.reading = .text s) : v.position? = some ⟨0, .text s⟩ := by
  obtain ⟨t, found, rfl⟩ := text?_of_reading text
  unfold position?
  rw [found]

theorem position?_of_integer {n : Int} (integer : v.reading = .integer n) :
    v.position? = some ⟨Format.double.place n, .integer n⟩ := by
  unfold reading at integer
  unfold position?
  split at integer
  case h_1 => cases integer
  case h_2 =>
    cases number : v.number with
    | int m =>
      rw [number] at integer
      cases integer
      exact Number.position?_int m
    | real x =>
      rw [number] at integer
      cases integer

/-- A value equal to two others does not show how these differ: as texts, if it is no text itself, or as
integers that are rounded to one real. -/
inductive Blurs (b a c : Value) : Prop where
  | texts {s t : String} (first : a.reading = .text s) (last : c.reading = .text t) (differ : s ≠ t)
      (middle : b.text? = none)
  | integers {m n : Int} (first : a.reading = .integer m) (last : c.reading = .integer n) (differ : m ≠ n)
      (middle : b.reading = .real)

/-- What is equal to one value is equal, unless the difference does not show in that value. -/
theorem order?_eq_iff_not_blurs (first : a.order? b = some .eq) (second : b.order? c = some .eq) :
    a.order? c = some .eq ↔ ¬b.Blurs a c := by
  rw [order?_eq] at first second
  obtain ⟨p, q, left, middle, equal⟩ := Position.order?_eq_some_iff.mp first
  obtain ⟨q', r, middle', right, equal'⟩ := Position.order?_eq_some_iff.mp second
  obtain rfl : q = q' := Option.some.inj (middle.symm.trans middle')
  obtain ⟨place, reading⟩ := Position.order_eq_eq_iff.mp equal
  obtain ⟨place', reading'⟩ := Position.order_eq_eq_iff.mp equal'
  -- All three stand at one place, so that the readings decide.
  have decides : a.order? c = some .eq ↔ a.reading.order c.reading = .eq := by
    rw [order?_eq, left, right, reading_of_position? left, reading_of_position? right]
    simp [Position.order?, Position.order_eq_eq_iff, place.trans place']
  rw [← reading_of_position? left, ← reading_of_position? middle] at reading
  rw [← reading_of_position? middle, ← reading_of_position? right] at reading'
  rw [decides]
  constructor
  · intro same blurs
    cases blurs with
    | texts first last differ _ => exact differ (by simpa [first, last] using same)
    | integers first last differ _ => exact differ (by simpa [first, last] using same)
  · intro shows
    by_contra apart
    -- What is told apart at one place is of one kind.
    rcases (Reading.order_eq_iff apart).mp rfl with ⟨s, t, first, last, _⟩ | ⟨m, n, first, last, _⟩
    · have differ : s ≠ t := by simpa [first, last] using apart
      refine shows (.texts first last differ (Option.eq_none_iff_forall_ne_some.mpr fun u string => ?_))
      rw [first, reading_of_text? string, Reading.order_text] at reading
      rw [last, reading_of_text? string, Reading.order_text] at reading'
      exact differ (reading.trans reading')
    · have differ : m ≠ n := by simpa [first, last] using apart
      cases between : b.reading with
      | text u =>
        -- Only zero is at the place of a text.
        cases left.symm.trans (position?_of_integer first)
        cases middle.symm.trans (position?_of_text between)
        cases right.symm.trans (position?_of_integer last)
        exact differ ((Format.place_eq_zero_iff.mp place).trans (Format.place_eq_zero_iff.mp place'.symm).symm)
      | integer k =>
        rw [first, between, Reading.order_integer] at reading
        rw [last, between, Reading.order_integer] at reading'
        exact differ (reading.trans reading')
      | real => exact shows (.integers first last differ between)

end Value

end Plc
