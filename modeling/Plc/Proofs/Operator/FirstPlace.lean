import Plc.Proofs.Value.CharString
import Plc.Proofs.Value.Room

/-!
# Where a character first stands

FIND counts the places of a string from one and answers zero for a character that is not in it. Its result
is an INT, so a place is wrapped to 16 bits: strings may be longer than an INT can count.

Main statements:

* `FirstPlace.unique`: there is one first place.
* `Library.standard_finds`: the reply to FIND, and when it reads as the first place.
-/

namespace Plc

open Value

variable {ch : Char} {cs : List Char} {i m n : Nat}

/-! ## §1 First places -/

/-- The place at which a character first stands in a text, counted from one; zero if it is not there. -/
structure FirstPlace (ch : Char) (cs : List Char) (n : Nat) : Prop where
  zero_iff : n = 0 ↔ ch ∉ cs
  le_length : n ≤ cs.length
  here : 0 < n → cs[n - 1]? = some ch
  not_before : ∀ i, i + 1 < n → cs[i]? ≠ some ch

namespace FirstPlace

theorem not_lt (first : FirstPlace ch cs m) (second : FirstPlace ch cs n) : ¬m < n := by
  intro lt
  rcases Nat.eq_zero_or_pos m with zero | positive
  · have absent := first.zero_iff.mp zero
    have none := second.zero_iff.mpr absent
    omega
  · exact second.not_before (m - 1) (by omega) (first.here positive)

theorem unique (first : FirstPlace ch cs m) (second : FirstPlace ch cs n) : m = n :=
  Nat.le_antisymm (Nat.not_lt.mp (second.not_lt first)) (Nat.not_lt.mp (first.not_lt second))

theorem of_notMem (absent : ch ∉ cs) : FirstPlace ch cs 0 where
  zero_iff := iff_of_true rfl absent
  le_length := Nat.zero_le _
  here := nofun
  not_before := nofun

theorem of_getElem? (here : cs[i]? = some ch) (before : ∀ j < i, cs[j]? ≠ some ch) :
    FirstPlace ch cs (i + 1) where
  zero_iff := iff_of_false (Nat.succ_ne_zero i) (not_not_intro (List.mem_of_getElem? here))
  le_length := (List.getElem?_eq_some_iff.mp here).1
  here _ := here
  not_before j lt := before j (Nat.lt_of_succ_lt_succ lt)

/-- Behind other characters, a character stands for the first time. -/
theorem behind (others : ch ∉ cs) (rest : List Char) : FirstPlace ch (cs ++ ch :: rest) (cs.length + 1) := by
  apply of_getElem?
  · simp
  · intro j lt here
    rw [List.getElem?_append_left lt] at here
    exact others (List.mem_of_getElem? here)

end FirstPlace

/-! ## §2 Looking for a character -/

namespace Operator

variable {s c : Value}

/-- What is written is the first place, as an INT. -/
theorem find_run (string : s.AnyString) (names : c.Names ch) (result : Value) :
    ∃ n : Nat, FirstPlace ch s.chars n ∧
      (find s c).run result = .ok () ((result.retype .int).setNumber (.ofInt n)) := by
  unfold find
  rw [Program.run_check_of_ok string.require_eq,
    Program.run_check_of_ok (names.wf.require_eq names.character), names.spelledText]
  cases found : s.chars.findIdx? fun x => [ch].head? = some x with
  | none =>
    refine ⟨0, .of_notMem fun mem => ?_, rfl⟩
    have other := List.findIdx?_eq_none_iff.mp found ch mem
    simp at other
  | some i =>
    obtain ⟨lt, same, others⟩ := List.findIdx?_eq_some_iff_getElem.mp found
    refine ⟨i + 1, .of_getElem? ?_ ?_, rfl⟩
    · rw [List.getElem?_eq_getElem lt]
      exact (of_decide_eq_true same).symm
    · intro j before here
      obtain ⟨_, there⟩ := List.getElem?_eq_some_iff.mp here
      exact others j before (decide_eq_true (congrArg some there.symm))

end Operator

/-! ## §3 Calls -/

namespace Library

variable {s c : Value}

theorem find?_find (mode : PowerMode) (profile : LiteralProfile) :
    (standard mode profile).find? "FIND" = some (.binary Operator.find) :=
  find?_standard profile (by simp [standardEntries])

/-- **FIND.** The reply is an INT that holds the place at which the character first stands in the string.
It reads as that place exactly if an INT has room for it. -/
theorem standard_finds (mode : PowerMode) (profile : LiteralProfile) (string : s.AnyString)
    (names : c.Names ch) : (standard mode profile).Fills "FIND" [s, c] fun u =>
      ∃ n : Nat, FirstPlace ch s.chars n ∧ u.Holds .int n ∧ (u.toInt = n ↔ n < 2 ^ 15) := by
  refine fills_fixed (find?_find mode profile) #v[s, c] fun result wf => ?_
  obtain ⟨n, first, run⟩ := Operator.find_run string names result
  have holds := wf.holds_setNumber (show DataType.int.IsWord from rfl) n
  refine ⟨_, run, n, first, holds, (holds.toInt_eq_iff rfl).trans ?_⟩
  show (-2 ^ 15 ≤ (n : Int) ∧ (n : Int) ≤ 2 ^ 15 - 1) ↔ n < 2 ^ 15
  omega

/-- The places are those of characters, however many bytes they take, and the result says so by an INT. -/
theorem standard_finds_umlaut :
    let lib := standard .power {}
    let s := Value.ofText "grüßen" true true
    lib.Fills "FIND" [s, .ofNumber .wchar (.ofInt 0xDF)] (·.toInt = 4) ∧
      lib.Fills "FIND" [s, .ofNumber .char (.ofInt 0x7A)] (·.toInt = 0) := by
  intro lib s
  have string : s.AnyString := .ofText "grüßen" true true
  have sharp : (ofNumber .wchar (.ofInt 0xDF)).Names 'ß' :=
    ⟨(wellFormed_zero .wchar).setNumber _, rfl, by decide +kernel⟩
  have other : (ofNumber .char (.ofInt 0x7A)).Names 'z' :=
    ⟨(wellFormed_zero .char).setNumber _, rfl, by decide +kernel⟩
  constructor
  · refine (standard_finds .power {} string sharp).mono fun u found => ?_
    obtain ⟨n, first, _, exact_iff⟩ := found
    have spelled : s.chars = ['g', 'r', 'ü'] ++ 'ß' :: ['e', 'n'] := by decide +kernel
    rw [spelled] at first
    obtain rfl := first.unique (.behind (by decide) _)
    exact exact_iff.mpr (by decide)
  · refine (standard_finds .power {} string other).mono fun u found => ?_
    obtain ⟨n, first, _, exact_iff⟩ := found
    obtain rfl := first.unique (.of_notMem (by decide +kernel))
    exact exact_iff.mpr (by decide)

/-- One character more than an INT can count, and the reply is a negative number. -/
theorem find_beyond_int :
    ¬∀ (mode : PowerMode) (profile : LiteralProfile) (s c : Value) (ch : Char) (result u : Value),
      s.AnyString → c.Names ch → result.WellFormed →
      (standard mode profile).call "FIND" result (.ofList [s, c]) = ⟨.ok (), u, .empty⟩ →
      ∃ n : Nat, u.toInt = n ∧ FirstPlace ch s.chars n := by
  intro always
  have string := AnyString.ofText (String.ofList (List.replicate 32767 'a' ++ ['b'])) false false
  have names : (ofNumber .char (.ofInt 0x62)).Names 'b' :=
    ⟨(wellFormed_zero .char).setNumber _, rfl, by decide +kernel⟩
  obtain ⟨n, first, run⟩ := Operator.find_run string names .null
  rw [chars_ofText, String.toList_ofList] at first
  have others : 'b' ∉ List.replicate 32767 'a' := fun mem => absurd (List.eq_of_mem_replicate mem) (by decide)
  have behind := FirstPlace.behind others []
  rw [List.length_replicate] at behind
  obtain rfl : n = 32768 := first.unique behind
  have reply := call_binary_of_ok (find?_find .power {}) run
  obtain ⟨k, reads, _⟩ := always .power {} _ _ 'b' .null _ string names (wellFormed_zero .null) reply
  have holds := (wellFormed_zero .null).holds_setNumber (show DataType.int.IsWord from rfl) 32768
  have negative : DataType.int.wrap 32768 = -32768 := by decide
  have wrapped := holds.toInt
  rw [negative] at wrapped
  have same := wrapped.symm.trans reads
  omega

end Library

end Plc
