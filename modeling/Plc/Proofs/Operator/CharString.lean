import Plc.Proofs.Value.CharString

/-!
# Strings cut at a position

MID, DELETE and REPLACE count characters from one, INSERT counts those in front of the place, and LEFT
counts those that it takes. All of them keep the type of the string and its way with checksums, so that
they can be put together: what is inserted is found at the next position, and is taken out there.

The first three look up the position in one way, before they write anything. That is stated once
(`Operator.Cuts`), and each of them is then known by the characters that it makes of a place. For DELETE and
REPLACE, and for INSERT as well, these are a splice of the string: some characters at the place are left out,
and others put there.

Main statements:

* `Text.splice_splice`: of two splices at one place, the first is undone.
* `Operator.Cuts.run_of_lt`, `Operator.Cuts.run_of_outside`: the two ends of such an operator.
* `Library.standard_inserts`: INSERT is undone by DELETE and observed by MID.
* `Library.standard_replaces`: REPLACE is DELETE and INSERT, and DELETE leaves what MID does not take.
-/

namespace Plc

open Value

variable {s text c l p : Value} {cs : List Char}

/-! ## §1 Splices -/

namespace Text

variable {start count : Nat} {ds es : List Char}

/-- The text with `ds` in place of `count` characters. -/
def splice (cs : List Char) (start count : Nat) (ds : List Char) : List Char :=
  cs.take start ++ (ds ++ cs.drop (start + count))

theorem take_splice (le : start ≤ cs.length) : (splice cs start count ds).take start = cs.take start :=
  List.take_left' (List.length_take_of_le le)

theorem drop_splice (le : start ≤ cs.length) :
    (splice cs start count ds).drop start = ds ++ cs.drop (start + count) :=
  List.drop_left' (List.length_take_of_le le)

theorem splice_nil (cs : List Char) (start : Nat) : splice cs start 0 [] = cs :=
  List.take_append_drop start cs

theorem splice_eq (cs : List Char) (start count : Nat) (ds : List Char) :
    splice cs start count ds = cs.take start ++ ds ++ cs.drop (start + count) :=
  (List.append_assoc ..).symm

theorem le_length_splice (le : start ≤ cs.length) : start ≤ (splice cs start count ds).length := by
  simp only [splice, List.length_append, List.length_take_of_le le]
  omega

theorem length_splice (le : start ≤ cs.length) :
    (splice cs start 0 ds).length = cs.length + ds.length := by
  simp only [splice, List.length_append, List.length_take_of_le le, List.length_drop]
  omega

/-- What was put in is left out again, and something else is put there. -/
theorem splice_splice (le : start ≤ cs.length) :
    splice (splice cs start count ds) start ds.length es = splice cs start count es := by
  calc splice (splice cs start count ds) start ds.length es
    _ = cs.take start ++ (es ++ ((splice cs start count ds).drop start).drop ds.length) := by
        rw [List.drop_drop, ← take_splice le]
        rfl
    _ = splice cs start count es := by rw [drop_splice le, List.drop_left]; rfl

/-- Some characters are left out, and then others are put there. -/
theorem splice_nil_splice (le : start ≤ cs.length) :
    splice (splice cs start count []) start 0 ds = splice cs start count ds :=
  splice_splice le

/-- What is in front of a place, what is left out there and the rest are the text. -/
theorem take_append_drop_splice (le : start ≤ cs.length) :
    cs.take start ++ (cs.drop start).take count ++ (splice cs start count []).drop start = cs := by
  rw [drop_splice le, List.nil_append, List.append_assoc, ← List.drop_drop, List.take_append_drop,
    List.take_append_drop]

end Text

namespace Operator

/-! ## §2 Positions -/

theorem startOf_of_lt {start size : Nat} (lt : start < size) : startOf (start + 1) size = .ok start := by
  unfold startOf
  simp only [Int.add_sub_cancel, Int.toNat_natCast]
  rw [if_neg (by omega), if_neg (by omega), Nat.min_eq_left (Nat.le_of_lt lt)]

theorem startOf_of_outside {position : Int} {size : Nat} (some : 0 < size)
    (outside : ¬(1 ≤ position ∧ position ≤ size)) : startOf position size = .error .outOfRange := by
  unfold startOf
  dsimp only
  split
  case isTrue => rfl
  case isFalse nonneg => exact if_pos ⟨by omega, some⟩

/-- The operator looks up a position of the string, and then writes the characters that are made of the
place. -/
def Cuts (s p : Value) (f : Nat → List Char) (action : Action) : Prop :=
  ∀ result, action.run result =
    match startOf p.toInt s.chars.length with
    | .ok start => .ok () (result.setCharsLike s (f start))
    | .error fault => .error fault result

namespace Cuts

variable {f : Nat → List Char} {action : Action}

theorem run_of_lt (cuts : Cuts s p f action) {start : Nat} (lt : start < s.chars.length)
    (at_start : p.toInt = start + 1) (result : Value) :
    action.run result = .ok () (result.setCharsLike s (f start)) := by
  rw [cuts, at_start, startOf_of_lt lt]

theorem run_of_outside (cuts : Cuts s p f action) (some : s.chars ≠ [])
    (outside : ¬(1 ≤ p.toInt ∧ p.toInt ≤ s.chars.length)) (result : Value) :
    action.run result = .error .outOfRange result := by
  rw [cuts, startOf_of_outside (List.length_pos_iff.mpr some) outside]

end Cuts

theorem cuts_startOf (s p : Value) (f : Nat → List Char) :
    Cuts s p f (do
      let start ← startOf p.toInt s.chars.length
      modify (·.setCharsLike s (f start))) := by
  intro result
  cases startOf p.toInt s.chars.length with
  | ok start => rfl
  | error fault => rfl

/-! ## §3 What the operators write -/

theorem toCount_eq {v : Value} {n : Nat} (counts : v.toInt = n) : v.toCount = n := by
  unfold toCount
  rw [counts, Int.toNat_natCast]

theorem left_run {n : Value} (string : s.AnyString) (count : n.AnyInt) (result : Value) :
    (left s n).run result = .ok () (result.setCharsLike s (s.chars.take n.toCount)) := by
  unfold left
  rw [Program.run_check_of_ok string.require_eq, Program.run_check_of_ok count.require_eq]
  rfl

theorem right_run {n : Value} (string : s.AnyString) (count : n.AnyInt) (result : Value) :
    (right s n).run result =
      .ok () (result.setCharsLike s (s.chars.drop (s.chars.length - n.toCount))) := by
  unfold right
  rw [Program.run_check_of_ok string.require_eq, Program.run_check_of_ok count.require_eq]
  rfl

theorem mid_cuts (string : s.AnyString) (count : l.AnyInt) (position : p.AnyInt) :
    Cuts s p (fun start => (s.chars.drop start).take l.toCount) (mid s l p) := by
  intro result
  unfold mid
  rw [Program.run_check_of_ok string.require_eq, Program.run_check_of_ok count.require_eq,
    Program.run_check_of_ok position.require_eq]
  exact cuts_startOf s p _ result

theorem delete_cuts (string : s.AnyString) (count : l.AnyInt) (position : p.AnyInt) :
    Cuts s p (fun start => Text.splice s.chars start l.toCount []) (delete s l p) := by
  intro result
  unfold delete
  rw [Program.run_check_of_ok string.require_eq, Program.run_check_of_ok count.require_eq,
    Program.run_check_of_ok position.require_eq]
  exact cuts_startOf s p _ result

theorem replace_cuts (string : s.AnyString) (wf : c.WellFormed) (character : c.type.belongs .char = true)
    (count : l.AnyInt) (position : p.AnyInt) :
    Cuts s p (fun start => Text.splice s.chars start l.toCount c.spelledText) (replace s c l p) := by
  intro result
  simp only [Text.splice_eq]
  unfold replace
  rw [Program.run_check_of_ok string.require_eq, Program.run_check_of_ok (wf.require_eq character),
    Program.run_check_of_ok count.require_eq, Program.run_check_of_ok position.require_eq]
  exact cuts_startOf s p _ result

theorem insert_run (string : s.AnyString) (wf : text.WellFormed) (chars : text.type.belongs .chars = true)
    (position : p.AnyInt) {place : Nat} (le : place ≤ s.chars.length) (at_place : p.toInt = place)
    (result : Value) : (insert s text p).run result =
      .ok () (result.setCharsLike s (Text.splice s.chars place 0 text.spelledText)) := by
  have inside : Fault.outOfRange.when (p.toInt < 0 || s.chars.length < p.toInt) = .ok () :=
    if_neg (by simp only [Bool.or_eq_true, decide_eq_true_eq]; omega)
  unfold insert
  rw [Program.run_check_of_ok string.require_eq, Program.run_check_of_ok (wf.require_eq chars),
    Program.run_check_of_ok position.require_eq, Program.run_check_of_ok inside, toCount_eq at_place,
    Text.splice_eq]
  rfl

theorem insert_run_of_outside (string : s.AnyString) (wf : text.WellFormed)
    (chars : text.type.belongs .chars = true) (position : p.AnyInt)
    (outside : p.toInt < 0 ∨ s.chars.length < p.toInt) (result : Value) :
    (insert s text p).run result = .error .outOfRange result := by
  have refused : Fault.outOfRange.when (p.toInt < 0 || s.chars.length < p.toInt) = .error .outOfRange :=
    if_pos (by simpa only [Bool.or_eq_true, decide_eq_true_eq] using outside)
  unfold insert
  rw [Program.run_check_of_ok string.require_eq, Program.run_check_of_ok (wf.require_eq chars),
    Program.run_check_of_ok position.require_eq]
  exact Program.run_check_of_error refused _ result

end Operator

/-! ## §4 Calls -/

namespace Library

open Operator

variable {lib : Library} {name : String} {arity : Nat} {apply : Vector Value arity → Action}

theorem fills_like (string : s.AnyString) (found : lib.find? name = some (.fixed arity apply))
    (last : Vector Value arity)
    (runs : ∀ result, (apply last).run result = .ok () (result.setCharsLike s cs)) :
    lib.Fills name last.toList (·.TextLike s cs) :=
  fills_fixed found last fun result wf => ⟨_, runs result, textLike_setCharsLike string wf cs⟩

/-- Called with the operands, the name gives a string like `s` with the characters that are made of the
place, or refuses a position that is outside of the string. -/
structure CutsAt (lib : Library) (name : String) (operands : List Value) (s p : Value)
    (f : Nat → List Char) : Prop where
  fills : ∀ start : Nat, start < s.chars.length → p.toInt = start + 1 →
    lib.Fills name operands (·.TextLike s (f start))
  refuses : s.chars ≠ [] → ¬(1 ≤ p.toInt ∧ p.toInt ≤ s.chars.length) →
    lib.Refuses name operands .outOfRange

theorem cutsAt_fixed (string : s.AnyString) (found : lib.find? name = some (.fixed arity apply))
    (last : Vector Value arity) {f : Nat → List Char} (cuts : Cuts s p f (apply last)) :
    lib.CutsAt name last.toList s p f where
  fills _ lt at_start := fills_like string found last (cuts.run_of_lt lt at_start)
  refuses some outside := refuses_fixed found last (cuts.run_of_outside some outside)

theorem CutsAt.status {operands : List Value} {f : Nat → List Char}
    (cuts : lib.CutsAt name operands s p f) (some : s.chars ≠ []) {result : Value} (wf : result.WellFormed) :
    (lib.call name result (.ofList operands)).status =
      if 1 ≤ p.toInt ∧ p.toInt ≤ s.chars.length then .ok () else .error .outOfRange := by
  split
  case isTrue inside =>
    obtain ⟨u, reply, _⟩ := cuts.fills (p.toInt - 1).toNat (by omega) (by omega) result wf
    rw [reply]
  case isFalse outside => rw [cuts.refuses some outside result]

section Standard

variable (mode : PowerMode) (profile : LiteralProfile)

theorem fills_left {n : Value} (string : s.AnyString) (count : n.AnyInt) :
    (standard mode profile).Fills "LEFT" [s, n] (·.TextLike s (s.chars.take n.toCount)) := by
  have found : (standard mode profile).find? "LEFT" = some (.binary left) :=
    find?_standard profile (by simp [standardEntries])
  exact fills_like string found #v[s, n] (left_run string count)

theorem fills_right {n : Value} (string : s.AnyString) (count : n.AnyInt) :
    (standard mode profile).Fills "RIGHT" [s, n]
      (·.TextLike s (s.chars.drop (s.chars.length - n.toCount))) := by
  have found : (standard mode profile).find? "RIGHT" = some (.binary right) :=
    find?_standard profile (by simp [standardEntries])
  exact fills_like string found #v[s, n] (right_run string count)

theorem find?_mid : (standard mode profile).find? "MID" = some (.ternary mid) :=
  find?_standard profile (by simp [standardEntries])

theorem find?_delete : (standard mode profile).find? "DELETE" = some (.ternary delete) :=
  find?_standard profile (by simp [standardEntries])

theorem find?_replace : (standard mode profile).find? "REPLACE" = some (.quaternary replace) :=
  find?_standard profile (by simp [standardEntries])

theorem cutsAt_mid (string : s.AnyString) (count : l.AnyInt) (position : p.AnyInt) :
    (standard mode profile).CutsAt "MID" [s, l, p] s p
      fun start => (s.chars.drop start).take l.toCount :=
  cutsAt_fixed string (find?_mid mode profile) #v[s, l, p] (mid_cuts string count position)

theorem cutsAt_delete (string : s.AnyString) (count : l.AnyInt) (position : p.AnyInt) :
    (standard mode profile).CutsAt "DELETE" [s, l, p] s p
      fun start => Text.splice s.chars start l.toCount [] :=
  cutsAt_fixed string (find?_delete mode profile) #v[s, l, p] (delete_cuts string count position)

theorem cutsAt_replace (string : s.AnyString) (wf : c.WellFormed) (character : c.type.belongs .char = true)
    (count : l.AnyInt) (position : p.AnyInt) :
    (standard mode profile).CutsAt "REPLACE" [s, c, l, p] s p
      fun start => Text.splice s.chars start l.toCount c.spelledText :=
  cutsAt_fixed string (find?_replace mode profile) #v[s, c, l, p]
    (replace_cuts string wf character count position)

theorem find?_insert : (standard mode profile).find? "INSERT" = some (.ternary insert) :=
  find?_standard profile (by simp [standardEntries])

theorem fills_insert (string : s.AnyString) (wf : text.WellFormed)
    (chars : text.type.belongs .chars = true) (position : p.AnyInt) {place : Nat}
    (le : place ≤ s.chars.length) (at_place : p.toInt = place) :
    (standard mode profile).Fills "INSERT" [s, text, p]
      (·.TextLike s (Text.splice s.chars place 0 text.spelledText)) :=
  fills_like string (find?_insert mode profile) #v[s, text, p]
    (insert_run string wf chars position le at_place)

/-! ## §5 Insertion and deletion -/

/-- What INSERT makes of a string, and what DELETE and MID make of that at the next position. -/
structure InsertsAt (lib : Library) (s text p : Value) : Prop where
  fills : 0 ≤ p.toInt → p.toInt ≤ s.chars.length → lib.Fills "INSERT" [s, text, p] fun u =>
    u.chars.length = s.chars.length + text.spelledText.length ∧
      ∀ count next : Value, count.AnyInt → next.AnyInt → count.toInt = text.spelledText.length →
        next.toInt = p.toInt + 1 →
          lib.Fills "DELETE" [u, count, next] (·.Alike s) ∧
            lib.Fills "MID" [u, count, next] (·.chars = text.spelledText)
  refuses : p.toInt < 0 ∨ s.chars.length < p.toInt → lib.Refuses "INSERT" [s, text, p] .outOfRange

/-- **INSERT, DELETE and MID.** A text is put into a string after a character or in front of all, and into
nothing else. Where it has been put, MID finds it, and DELETE takes it out again without a trace. -/
theorem standard_inserts (string : s.AnyString) (wf : text.WellFormed)
    (chars : text.type.belongs .chars = true) (some : text.spelledText ≠ []) (position : p.AnyInt) :
    InsertsAt (standard mode profile) s text p where
  fills nonneg le := by
    obtain ⟨place, at_place⟩ := Int.eq_ofNat_of_zero_le nonneg
    have le : place ≤ s.chars.length := by omega
    refine (fills_insert mode profile string wf chars position le at_place).mono fun u like => ?_
    have length : u.chars.length = s.chars.length + text.spelledText.length := by
      rw [like.chars, Text.length_splice le]
    have more : 0 < text.spelledText.length := List.length_pos_iff.mpr some
    refine ⟨length, fun count next counts numbers at_count at_next => ?_⟩
    have string' := like.anyString string
    have inside : place < u.chars.length := by omega
    have at_next : next.toInt = place + 1 := by omega
    constructor
    · refine ((cutsAt_delete mode profile string' counts numbers).fills place inside at_next).mono ?_
      intro v like'
      rw [toCount_eq at_count, like.chars, Text.splice_splice le, Text.splice_nil] at like'
      exact (like'.trans like).alike string.textLike_self
    · refine ((cutsAt_mid mode profile string' counts numbers).fills place inside at_next).mono ?_
      intro v like'
      rw [like'.chars, toCount_eq at_count, like.chars, Text.drop_splice le, List.take_left]
  refuses outside := refuses_fixed (find?_insert mode profile) #v[s, text, p]
    (insert_run_of_outside string wf chars position outside)

/-- A text is put behind a string with a checksum and taken out again, and nothing goes further behind. -/
theorem standard_inserts_behind :
    let lib := standard .power {}
    let s := Value.ofText "grüße" true true
    let text := Value.ofText "né" false false
    let int (n : Int) := Value.ofNumber .int (.ofInt n)
    (lib.Fills "INSERT" [s, text, int 5] fun u => u.chars.length = 7 ∧
      lib.Fills "DELETE" [u, int 2, int 6] (·.Alike s) ∧
        lib.Fills "MID" [u, int 2, int 6] (·.chars = ['n', 'é'])) ∧
      lib.Refuses "INSERT" [s, text, int 6] .outOfRange := by
  intro lib s text int
  have number (n : Int) : (int n).AnyInt := .ofNumber rfl _
  have inserts (n : Int) : InsertsAt lib s text (int n) :=
    standard_inserts .power {} (.ofText "grüße" true true) (closed_wellFormed.ofText "né" false false) rfl
      (by decide +kernel) (number n)
  constructor
  · refine ((inserts 5).fills (by decide +kernel) (by decide +kernel)).mono fun u made => ?_
    obtain ⟨length, again⟩ := made
    have undone := again (int 2) (int 6) (number 2) (number 6) (by decide +kernel) (by decide +kernel)
    exact ⟨length.trans (by decide +kernel), undone.1, undone.2⟩
  · exact (inserts 6).refuses (Or.inr (by decide +kernel))

/-! ## §6 Replacement -/

/-- What REPLACE, DELETE and MID make of a string with the same count and the same position. -/
structure ReplacesAt (lib : Library) (s c l p : Value) : Prop where
  status : ∀ call ∈ [("REPLACE", [s, c, l, p]), ("DELETE", [s, l, p]), ("MID", [s, l, p])],
    ∀ result : Value, result.WellFormed → (lib.call call.1 result (.ofList call.2)).status =
      if 1 ≤ p.toInt ∧ p.toInt ≤ s.chars.length then .ok () else .error .outOfRange
  parts : 1 ≤ p.toInt → p.toInt ≤ s.chars.length →
    ∀ before : Value, before.AnyInt → before.toInt = p.toInt - 1 →
      lib.Fills "DELETE" [s, l, p] fun deleted =>
        (lib.Fills "INSERT" [deleted, c, before] fun inserted =>
          lib.Fills "REPLACE" [s, c, l, p] (·.Alike inserted)) ∧
        lib.Fills "LEFT" [s, before] fun front => lib.Fills "MID" [s, l, p] fun middle =>
          front.chars ++ middle.chars ++ deleted.chars.drop (p.toInt - 1).toNat = s.chars

/-- **REPLACE, DELETE and MID.** They take the same positions. REPLACE does what DELETE and then INSERT do,
and what is in front of the position, what MID takes and what DELETE leaves behind are the string. -/
theorem standard_replaces (string : s.AnyString) (some : s.chars ≠ []) (wf : c.WellFormed)
    (character : c.type.belongs .char = true) (count : l.AnyInt) (position : p.AnyInt) :
    ReplacesAt (standard mode profile) s c l p := by
  have replaces := cutsAt_replace mode profile string wf character count position
  have deletes := cutsAt_delete mode profile string count position
  have takes := cutsAt_mid mode profile string count position
  have chars : c.type.belongs .chars = true := Bool.or_eq_true_iff.mpr (Or.inl character)
  constructor
  case status =>
    simp only [List.forall_mem_cons, List.not_mem_nil, false_imp_iff, implies_true, and_true]
    exact ⟨fun _ => replaces.status some, fun _ => deletes.status some, fun _ => takes.status some⟩
  case parts =>
    intro least le before number at_before
    obtain ⟨start, at_start⟩ := Int.eq_ofNat_of_zero_le (Int.sub_nonneg_of_le least)
    have lt : start < s.chars.length := by omega
    have at_next : p.toInt = start + 1 := by omega
    rw [at_start] at at_before
    rw [at_start, Int.toNat_natCast]
    have le : start ≤ s.chars.length := Nat.le_of_lt lt
    refine (deletes.fills start lt at_next).mono fun deleted like => ⟨?_, ?_⟩
    · have inside : start ≤ deleted.chars.length := by
        rw [like.chars]
        exact Text.le_length_splice le
      refine (fills_insert mode profile (like.anyString string) wf chars number inside at_before).mono ?_
      intro inserted like'
      rw [like.chars, Text.splice_nil_splice le] at like'
      exact (replaces.fills start lt at_next).mono fun replaced like'' => like''.alike (like'.trans like)
    · refine (fills_left mode profile string number).mono fun front like' => ?_
      refine (takes.fills start lt at_next).mono fun middle like'' => ?_
      rw [like'.chars, like''.chars, like.chars, toCount_eq at_before]
      exact Text.take_append_drop_splice le

/-- A negative count replaces no character, and half of a surrogate pair puts none in. -/
theorem standard_replaces_none :
    let lib := standard .power {}
    let s := Value.ofText "grüße" true true
    let c := Value.ofNumber .wchar (.ofInt 0xD800)
    let int (n : Int) := Value.ofNumber .int (.ofInt n)
    (lib.Fills "DELETE" [s, int (-3), int 2] fun deleted =>
      (lib.Fills "INSERT" [deleted, c, int 1] fun inserted =>
        lib.Fills "REPLACE" [s, c, int (-3), int 2] (·.Alike inserted)) ∧
      lib.Fills "LEFT" [s, int 1] fun front => lib.Fills "MID" [s, int (-3), int 2] fun middle =>
        front.chars ++ middle.chars ++ deleted.chars.drop 1 = s.chars) ∧
      (lib.call "REPLACE" .null (.ofList [s, c, int (-3), int 6])).status = .error .outOfRange := by
  intro lib s c int
  have number (n : Int) : (int n).AnyInt := .ofNumber rfl _
  have replaces (n : Int) : ReplacesAt lib s c (int (-3)) (int n) :=
    standard_replaces .power {} (.ofText "grüße" true true) (by decide +kernel)
      ((wellFormed_zero .wchar).setNumber _) rfl (number (-3)) (number n)
  constructor
  · exact (replaces 2).parts (by decide +kernel) (by decide +kernel) (int 1) (number 1) (by decide +kernel)
  · have refused := (replaces 6).status _ List.mem_cons_self .null (wellFormed_zero .null)
    exact refused.trans (if_neg (by decide +kernel))

end Standard

end Library

end Plc
