import Plc.Proofs.Calendar
import Plc.Proofs.Literal.Number
import Plc.Proofs.Value.Room

/-!
# Dates and times of day in literals

A date is written as three numbers with hyphens between, a time of day as three numbers with colons between
and perhaps a point and more digits, and both together with a hyphen between them, which is the last one of
the text. Numbers may have any number of leading zeros. What is written is read back: as ticks if it names a
day of the calendar and a time of the day, and as nothing if not.

Main statements:

* `date?_of_writes`, `timeOfDay?_of_writes`, `dateAndTime?_of_writes`: the three readers.
* `classify_moment`: the marks in front, in either spelling.
* `parse_moment`: the whole literal.
-/

namespace Plc.Literal

/-! ## §1 Forms of text -/

/-- The milliseconds of a fraction: its first three digits, with zeros for missing ones. -/
def leadingMillis (fraction : List Char) : Nat :=
  Nat.ofDigitChars 10 ((fraction.take 3).rightpad 3 '0') 0

/-- A time of day as it is written: three numbers, and the digits after a point. -/
structure ClockTime where
  hour : Nat
  minute : Nat
  second : Nat
  fraction : List Char

namespace ClockTime

/-- It is a time of the day. -/
def InRange (t : ClockTime) : Prop := t.hour < 24 ∧ t.minute < 60 ∧ t.second < 60

instance (t : ClockTime) : Decidable t.InRange := inferInstanceAs (Decidable (_ ∧ _))

/-- Milliseconds since midnight. -/
def ticks (t : ClockTime) : Int :=
  ((t.hour * 60 + t.minute) * 60 + t.second) * 1000 + leadingMillis t.fraction

end ClockTime

/-- The text is a date: year, month and day. -/
inductive WritesDate : List Char → CivilDate → Prop where
  | intro {ys ms ds : List Char} {year month day : Nat} : Digits 10 ys year → Digits 10 ms month →
      Digits 10 ds day → WritesDate (ys ++ '-' :: (ms ++ '-' :: ds)) ⟨year, month, day⟩

/-- The text is a time of day: hours, minutes and seconds, with a fraction or without. -/
inductive WritesClock : List Char → ClockTime → Prop where
  | whole {hs ms ss : List Char} {hour minute second : Nat} : Digits 10 hs hour → Digits 10 ms minute →
      Digits 10 ss second → WritesClock (hs ++ ':' :: (ms ++ ':' :: ss)) ⟨hour, minute, second, []⟩
  | fraction {hs ms ss fs : List Char} {hour minute second : Nat} : Digits 10 hs hour →
      Digits 10 ms minute → Digits 10 ss second → (∀ c ∈ fs, c.isDigit = true) →
        WritesClock (hs ++ ':' :: (ms ++ ':' :: (ss ++ '.' :: fs))) ⟨hour, minute, second, fs⟩

/-- The two spellings of the mark of a kind. -/
def markSpellings : LiteralKind → List String
  | .date => ["D#", "DATE#"]
  | .timeOfDay => ["TOD#", "TIME_OF_DAY#"]
  | .dateAndTime => ["DT#", "DATE_AND_TIME#"]
  | _ => []

/-- The text is a mark of the kind, in any letter case, and the body, with blanks around both. -/
inductive Marked (kind : LiteralKind) (body : List Char) : List Char → Prop where
  | intro {mark : String} {before letters after : List Char} : mark ∈ markSpellings kind →
      Text.upper letters = mark.toList → (∀ c ∈ before, Text.isBlank c = true) →
        (∀ c ∈ after, Text.isBlank c = true) → Marked kind body (before ++ (letters ++ body ++ after))

variable {cs ds body text : List Char} {n : Nat}

/-! ## §2 Fields -/

/-- Digits, and separators among them. -/
def Joined (separators cs : List Char) : Prop := ∀ c ∈ cs, c.isDigit = true ∨ c ∈ separators

section Joined

variable {separators : List Char} {sep : Char}

theorem joined_of_isDigit (digits : ∀ c ∈ cs, c.isDigit = true) : Joined separators cs :=
  fun c mem => Or.inl (digits c mem)

theorem Digits.joined (digits : Digits 10 cs n) : Joined separators cs := joined_of_isDigit digits.isDigit

theorem Joined.append (first : Joined separators ds) (second : Joined separators cs)
    (known : sep ∈ separators) : Joined separators (ds ++ sep :: cs) := by
  intro c mem
  rcases List.mem_append.mp mem with front | mem
  · exact first c front
  · rcases List.mem_cons.mp mem with rfl | back
    · exact Or.inr known
    · exact second c back

theorem Joined.mono {more : List Char} (joined : Joined separators cs) (subset : separators ⊆ more) :
    Joined more cs :=
  fun c mem => (joined c mem).imp_right fun known => subset known

theorem Joined.notMem (joined : Joined separators cs) (other : sep.isDigit = false)
    (absent : sep ∉ separators) : sep ∉ cs := by
  intro mem
  rcases joined sep mem with digit | known
  · rw [digit] at other
    contradiction
  · exact absent known

theorem Digits.notMem (digits : Digits 10 cs n) (other : sep.isDigit = false) : sep ∉ cs :=
  Joined.notMem digits.joined other List.not_mem_nil

end Joined

theorem WritesDate.joined {d : CivilDate} (writes : WritesDate cs d) : Joined ['-'] cs := by
  cases writes with
  | intro year month day =>
    exact year.joined.append (month.joined.append day.joined (by decide)) (by decide)

theorem WritesClock.joined {t : ClockTime} (writes : WritesClock cs t) : Joined [':', '.'] cs := by
  cases writes with
  | whole hour minute second =>
    exact hour.joined.append (minute.joined.append second.joined (by decide)) (by decide)
  | fraction hour minute second digits =>
    have seconds : Joined [':', '.'] (_ ++ '.' :: _) :=
      second.joined.append (joined_of_isDigit digits) (by decide)
    exact hour.joined.append (minute.joined.append seconds (by decide)) (by decide)

theorem joined_dateAndTime {d : CivilDate} {t : ClockTime} (writes : WritesDate ds d)
    (writes' : WritesClock cs t) : Joined ['-', ':', '.'] (ds ++ '-' :: cs) :=
  (writes.joined.mono (by simp)).append (writes'.joined.mono (by simp)) (by decide)

theorem field?_of_digits (digits : Digits 10 cs n) :
    field? cs = if (n : Int) < 2 ^ 63 then some (n : Int) else none := by
  have read : Numeral.integer? cs = some (n : Int) := integer?_iff.mpr (.unsigned digits)
  unfold field? Numeral.integerWithin?
  rw [read, Option.filter_some]
  simp only [Bool.and_eq_true, decide_eq_true_eq]
  exact if_congr (by omega) rfl rfl

theorem fieldBelow?_of_digits (digits : Digits 10 cs n) (limit : Int) (small : limit < 2 ^ 63) :
    fieldBelow? limit cs = if (n : Int) < limit then some (n : Int) else none := by
  unfold fieldBelow?
  rw [field?_of_digits digits]
  split
  case isTrue =>
    rw [Option.filter_some]
    simp only [Bool.and_eq_true, decide_eq_true_eq]
    exact if_congr (by omega) rfl rfl
  case isFalse => rw [Option.filter_none, if_neg (by omega)]

/-! ## §3 The three readers -/

/-- A field that does not fit 64 bits is out of the range of years, months and days as well. -/
theorem date?_of_writes {d : CivilDate} (writes : WritesDate cs d) : date? cs = d.ticks? := by
  cases writes with
  | @intro ys ms ds year month day digits digits' digits'' =>
    have parts : Text.fields '-' (ys ++ '-' :: (ms ++ '-' :: ds)) = [ys, ms, ds] := by
      rw [Text.fields_append (digits.notMem rfl), Text.fields_append (digits'.notMem rfl),
        Text.fields_of_notMem (digits''.notMem rfl)]
    unfold date?
    simp only [parts, field?_of_digits digits, field?_of_digits digits', field?_of_digits digits'']
    by_cases valid : CivilDate.Valid ⟨year, month, day⟩
    case pos =>
      have kept := valid.1.2
      have december := valid.2.1.2
      have last := valid.2.2.2
      have length := CivilDate.daysInMonth_le year month
      dsimp only at kept december last
      rw [if_pos (by omega), if_pos (by omega), if_pos (by omega)]
      rfl
    case neg =>
      have none : CivilDate.ticks? ⟨year, month, day⟩ = none := if_neg valid
      rw [none]
      split_ifs <;> simp [none]

theorem take_append_zeros (fs : List Char) :
    (fs ++ ['0', '0', '0']).take 3 = (fs.take 3).rightpad 3 '0' := by
  match fs with
  | [] | [_] | [_, _] | _ :: _ :: _ :: _ => rfl

theorem fractionMillis?_of_isDigit {fs : List Char} (digits : ∀ c ∈ fs, c.isDigit = true) :
    fractionMillis? fs = some (leadingMillis fs : Int) := by
  unfold fractionMillis?
  rw [if_pos (List.all_eq_true.mpr digits), take_append_zeros]
  rfl

theorem secondsMillis?_whole (digits : Digits 10 cs n) :
    secondsMillis? cs = if (n : Int) < 60 then some ((n : Int) * 1000 + leadingMillis []) else none := by
  have nothing : (leadingMillis [] : Int) = 0 := by decide
  unfold secondsMillis?
  rw [Text.splitFirst?_of_notMem (digits.notMem rfl), nothing, Int.add_zero]
  simp only [fieldBelow?_of_digits digits 60 (by decide)]
  split_ifs <;> rfl

theorem secondsMillis?_fraction {fs : List Char} (digits : Digits 10 cs n)
    (digits' : ∀ c ∈ fs, c.isDigit = true) :
    secondsMillis? (cs ++ '.' :: fs) =
      if (n : Int) < 60 then some ((n : Int) * 1000 + leadingMillis fs) else none := by
  unfold secondsMillis?
  rw [Text.splitFirst?_append (digits.notMem rfl)]
  simp only [fieldBelow?_of_digits digits 60 (by decide), fractionMillis?_of_isDigit digits']
  split_ifs <;> rfl

/-- The hours and the minutes, before whatever the seconds are. -/
theorem timeOfDay?_of_seconds {hs ms fs : List Char} {hour minute second : Nat} (digits : Digits 10 hs hour)
    (digits' : Digits 10 ms minute) (colon : ':' ∉ cs)
    (seconds : secondsMillis? cs =
      if (second : Int) < 60 then some ((second : Int) * 1000 + leadingMillis fs) else none)
    {t : ClockTime} (written : t = ⟨hour, minute, second, fs⟩) :
    timeOfDay? (hs ++ ':' :: (ms ++ ':' :: cs)) = if t.InRange then some t.ticks else none := by
  subst written
  have parts : Text.fields ':' (hs ++ ':' :: (ms ++ ':' :: cs)) = [hs, ms, cs] := by
    rw [Text.fields_append (digits.notMem rfl), Text.fields_append (digits'.notMem rfl),
      Text.fields_of_notMem colon]
  unfold timeOfDay?
  simp only [parts, fieldBelow?_of_digits digits 24 (by decide),
    fieldBelow?_of_digits digits' 60 (by decide), seconds]
  by_cases inRange : (ClockTime.mk hour minute second fs).InRange
  case pos =>
    rw [if_pos inRange]
    obtain ⟨first, next, last⟩ := inRange
    dsimp only at first next last
    rw [if_pos (by omega), if_pos (by omega), if_pos (by omega)]
    refine congrArg some ?_
    simp only [ClockTime.ticks]
    omega
  case neg =>
    rw [if_neg inRange]
    unfold ClockTime.InRange at inRange
    dsimp only at inRange
    -- The first field that is out of range ends the reading.
    split_ifs
    · omega
    all_goals rfl

theorem timeOfDay?_of_writes {t : ClockTime} (writes : WritesClock cs t) :
    timeOfDay? cs = if t.InRange then some t.ticks else none := by
  cases writes with
  | whole hours minutes seconds =>
    exact timeOfDay?_of_seconds hours minutes (seconds.notMem rfl) (secondsMillis?_whole seconds) rfl
  | fraction hours minutes seconds digits =>
    have pointed : Joined ['.'] (_ ++ '.' :: _) :=
      seconds.joined.append (joined_of_isDigit digits) (by decide)
    exact timeOfDay?_of_seconds hours minutes (pointed.notMem rfl (by decide))
      (secondsMillis?_fraction seconds digits) rfl

/-- Each digit moves what is read by a place. -/
theorem ofDigitChars_lt (digits : ∀ c ∈ cs, c.isDigit = true) (acc : Nat) :
    Nat.ofDigitChars 10 cs acc < (acc + 1) * 10 ^ cs.length := by
  induction cs generalizing acc with
  | nil => simp
  | cons c rest ih =>
    have most : c.toNat ≤ 57 := (Char.isDigit_iff_toNat.mp (digits c List.mem_cons_self)).2
    have value : c.toNat - '0'.toNat ≤ 9 := by
      show c.toNat - 48 ≤ 9
      omega
    rw [Nat.ofDigitChars_cons]
    calc Nat.ofDigitChars 10 rest (10 * acc + (c.toNat - '0'.toNat))
      _ < (10 * acc + (c.toNat - '0'.toNat) + 1) * 10 ^ rest.length :=
        ih (fun c mem => digits c (List.mem_cons_of_mem _ mem)) _
      _ ≤ ((acc + 1) * 10) * 10 ^ rest.length := Nat.mul_le_mul_right _ (by omega)
      _ = (acc + 1) * 10 ^ (c :: rest).length := by rw [List.length_cons, Nat.pow_succ']; ac_rfl

theorem leadingMillis_lt {fs : List Char} (digits : ∀ c ∈ fs, c.isDigit = true) : leadingMillis fs < 1000 := by
  have length : ((fs.take 3).rightpad 3 '0').length = 3 := by simp [List.rightpad]
  have padded : ∀ c ∈ (fs.take 3).rightpad 3 '0', c.isDigit = true := by
    intro c mem
    rcases List.mem_append.mp mem with front | zero
    · exact digits c (List.mem_of_mem_take front)
    · rw [List.eq_of_mem_replicate zero]
      rfl
  have bound := ofDigitChars_lt padded 0
  rw [length] at bound
  exact bound

theorem WritesClock.ticks_bounds {t : ClockTime} (writes : WritesClock cs t) (inRange : t.InRange) :
    0 ≤ t.ticks ∧ t.ticks < 86400000 := by
  have millis : leadingMillis t.fraction < 1000 := by
    cases writes with
    | whole => exact leadingMillis_lt (by simp)
    | fraction _ _ _ digits => exact leadingMillis_lt digits
  obtain ⟨hour, minute, second⟩ := inRange
  unfold ClockTime.ticks
  omega

/-- No time of day has a hyphen, so the last one of the text ends the date. -/
theorem dateAndTime?_of_writes {d : CivilDate} {t : ClockTime} (writes : WritesDate ds d)
    (writes' : WritesClock cs t) :
    dateAndTime? (ds ++ '-' :: cs) = if t.InRange then d.ticks?.map (· + t.ticks) else none := by
  have hyphen : '-' ∉ cs := writes'.joined.notMem rfl (by decide)
  unfold dateAndTime?
  rw [Text.splitLast?_append hyphen]
  simp only [date?_of_writes writes, timeOfDay?_of_writes writes']
  split
  case isTrue inRange =>
    cases found : d.ticks? with
    | none => rfl
    | some n =>
      have date := CivilDate.ticks_bounds found
      have clock := writes'.ticks_bounds inRange
      exact Checked.is_ofInt (n := n + t.ticks) ⟨by omega, by omega⟩
  case isFalse => cases d.ticks? <;> rfl

/-! ## §4 Marks -/

/-- A longer mark comes before its own ending, so the first mark that is tried is the one that is there. -/
theorem classify_moment {kind : LiteralKind} {mark : String} (spelling : mark ∈ markSpellings kind)
    (seen : Text.upper (Text.trim text) = mark.toList ++ body) :
    classify text = .ok ⟨kind, none, body⟩ := by
  cases kind with
  | date | timeOfDay | dateAndTime =>
    simp only [markSpellings, List.mem_cons, List.not_mem_nil, or_false] at spelling
    rcases spelling with rfl | rfl
    all_goals
      unfold classify
      simp only [seen]
      rfl
  | _ => cases spelling

theorem notBlank_spelling {kind : LiteralKind} {mark : String} (spelling : mark ∈ markSpellings kind) :
    ∀ c ∈ mark.toList, Text.isBlank c = false := by
  have each : ∀ kind ∈ LiteralKind.all, ∀ mark ∈ markSpellings kind,
      mark.toList.all (!Text.isBlank ·) = true := by decide +kernel
  have listed : kind ∈ LiteralKind.all := by cases kind <;> decide
  intro c mem
  simpa using List.all_eq_true.mp (each kind listed mark spelling) c mem

theorem Marked.classify_eq {kind : LiteralKind} (marked : Marked kind body text)
    (plain : Joined ['-', ':', '.'] body) : classify text = .ok ⟨kind, none, body⟩ := by
  have shown : ∀ c ∈ body, Text.isBlank c = false ∧ ¬(97 ≤ c.toNat ∧ c.toNat ≤ 122) := by
    intro c mem
    rcases plain c mem with digit | mark
    · have most : c.toNat ≤ 57 := (Char.isDigit_iff_toNat.mp digit).2
      exact ⟨Text.isBlank_of_isDigit digit, by omega⟩
    · simp only [List.mem_cons, List.not_mem_nil, or_false] at mark
      rcases mark with rfl | rfl | rfl <;> decide
  cases marked with
  | @intro mark before letters after spelling raised blank blank' =>
    have visible : ∀ c ∈ letters ++ body, Text.isBlank c = false := by
      intro c mem
      rcases List.mem_append.mp mem with letter | other
      · exact Text.notBlank_of_upper (raised ▸ notBlank_spelling spelling) c letter
      · exact (shown c other).1
    apply classify_moment spelling
    rw [Text.trim_surrounded blank blank' visible, Text.upper_append, raised,
      Text.upper_of_notLower fun c mem => (shown c mem).2]

/-! ## §5 Values -/

/-- The text denotes, under the profile, a fresh value of the type that reads as the number. -/
def ParsesTo (text : List Char) (profile : LiteralProfile) (type : DataType) (n : Int) : Prop :=
  ∃ v, parse text profile = .ok v ∧ v.WellFormed ∧ v.type = type ∧ v.Unflagged ∧ v.number? = some (.ofInt n)

/-- The three types of dates and times hold their ticks in the same way. -/
theorem parsesTo_of_typed {profile : LiteralProfile} {literal : Literal} {type : DataType} {p : Payload}
    {ticks : Int} (classified : classify text = .ok literal)
    (value : literal.value? profile = typed? type p) (shape : p.shape = type.shape)
    (noText : p.text? = none) (number : p.number? = some (.int (Layout.widen true (BitVec.ofInt 64 ticks))))
    (fits : Checked.Fits ticks) : ParsesTo text profile type ticks := by
  have found : typed? type p = some { Value.zero type with payload := p } := if_pos shape
  have sound : p.Sound := by
    intro s found
    rw [noText] at found
    cases found
  refine ⟨_, parse_of_value? classified (value.trans found), ?_, rfl, ⟨rfl, rfl⟩, ?_⟩
  · exact (Value.wellFormed_zero type).setPayload? sound found
  · refine number.trans (congrArg some ?_)
    exact Layout.int_widen_of_hasRoom (by decide) (by decide) ⟨fits.1, Int.le_sub_one_of_lt fits.2⟩

/-- The reader of the bodies of a kind of dates or times. -/
def moment? : LiteralKind → List Char → Option Int
  | .date => date?
  | .timeOfDay => timeOfDay?
  | .dateAndTime => dateAndTime?
  | _ => fun _ => none

section Marked

variable {kind : LiteralKind} {profile : LiteralProfile}

theorem Marked.parsesTo (marked : Marked kind body text) (joined : Joined ['-', ':', '.'] body)
    {type : DataType} (own : kind.ownType? = some type) {n : Int} (read : moment? kind body = some n)
    (fits : Checked.Fits n) : ParsesTo text profile type n := by
  have classified := marked.classify_eq joined
  cases kind with
  | date =>
    cases own
    have value : value? ⟨.date, none, body⟩ profile = typed? .date ⟨.date, .ofInt 64 n⟩ := by
      show (date? body).bind _ = _
      rw [show date? body = some _ from read]
      rfl
    exact parsesTo_of_typed classified value rfl rfl rfl fits
  | timeOfDay =>
    cases own
    have value : value? ⟨.timeOfDay, none, body⟩ profile = typed? .tod ⟨.tod, .ofInt 64 n⟩ := by
      show (timeOfDay? body).bind _ = _
      rw [show timeOfDay? body = some _ from read]
      rfl
    exact parsesTo_of_typed classified value rfl rfl rfl fits
  | dateAndTime =>
    cases own
    have value : value? ⟨.dateAndTime, none, body⟩ profile = typed? .dt ⟨.dt, .ofInt 64 n⟩ := by
      show (dateAndTime? body).bind _ = _
      rw [show dateAndTime? body = some _ from read]
      rfl
    exact parsesTo_of_typed classified value rfl rfl rfl fits
  | _ => cases read

theorem Marked.fails (marked : Marked kind body text) (joined : Joined ['-', ':', '.'] body)
    (read : moment? kind body = none) : parse text profile = .error .failed := by
  apply parse_of_none (marked.classify_eq joined)
  cases marked with
  | intro spelling =>
    cases kind with
    | date => exact Option.bind_eq_none_iff.mpr fun n found => by cases read.symm.trans found
    | timeOfDay => exact Option.bind_eq_none_iff.mpr fun n found => by cases read.symm.trans found
    | dateAndTime => exact Option.bind_eq_none_iff.mpr fun n found => by cases read.symm.trans found
    | _ => cases spelling

end Marked

/-! ## §6 Literals -/

/-- What the three kinds of literals make of a date `d`, written as `ds`, and a time of day `t`, written as
`cs`, whatever mark is in front of them. -/
structure ReadsMoment (profile : LiteralProfile) (ds cs : List Char) (d : CivilDate) (t : ClockTime) :
    Prop where
  date : d.InCalendar →
    ∃ n, d.ticks? = some n ∧ ∀ text, Marked .date ds text → ParsesTo text profile .date n
  date_fails : ¬d.InCalendar → ∀ text, Marked .date ds text → parse text profile = .error .failed
  timeOfDay : t.InRange → ∀ text, Marked .timeOfDay cs text → ParsesTo text profile .tod t.ticks
  timeOfDay_fails : ¬t.InRange → ∀ text, Marked .timeOfDay cs text → parse text profile = .error .failed
  dateAndTime : d.InCalendar → t.InRange →
    ∃ n, d.ticks? = some n ∧
      ∀ text, Marked .dateAndTime (ds ++ '-' :: cs) text → ParsesTo text profile .dt (n + t.ticks)
  dateAndTime_fails : ¬(d.InCalendar ∧ t.InRange) →
    ∀ text, Marked .dateAndTime (ds ++ '-' :: cs) text → parse text profile = .error .failed

/-- **Literals of dates and times.** A date, a time of day and both together, behind either spelling of their
mark, are read as what is written, and fail if there is no such date or time. -/
theorem parse_moment {d : CivilDate} {t : ClockTime} (writes : WritesDate ds d) (writes' : WritesClock cs t)
    (profile : LiteralProfile) : ReadsMoment profile ds cs d t where
  date kept := by
    obtain ⟨n, ticks⟩ := CivilDate.exists_ticks kept
    have bounds := CivilDate.ticks_bounds ticks
    refine ⟨n, ticks, fun text marked => ?_⟩
    exact marked.parsesTo (writes.joined.mono (by simp)) rfl ((date?_of_writes writes).trans ticks)
      ⟨by omega, by omega⟩
  date_fails outside text marked := by
    have nothing := CivilDate.ticks?_of_not_inCalendar outside
    exact marked.fails (writes.joined.mono (by simp)) ((date?_of_writes writes).trans nothing)
  timeOfDay inRange text marked := by
    have bounds := writes'.ticks_bounds inRange
    exact marked.parsesTo (writes'.joined.mono (by simp)) rfl
      ((timeOfDay?_of_writes writes').trans (if_pos inRange)) ⟨by omega, by omega⟩
  timeOfDay_fails outside text marked :=
    marked.fails (writes'.joined.mono (by simp)) ((timeOfDay?_of_writes writes').trans (if_neg outside))
  dateAndTime kept inRange := by
    obtain ⟨n, ticks⟩ := CivilDate.exists_ticks kept
    have date := CivilDate.ticks_bounds ticks
    have clock := writes'.ticks_bounds inRange
    have read : dateAndTime? (ds ++ '-' :: cs) = some (n + t.ticks) := by
      rw [dateAndTime?_of_writes writes writes', if_pos inRange, ticks]
      rfl
    exact ⟨n, ticks, fun text marked =>
      marked.parsesTo (joined_dateAndTime writes writes') rfl read ⟨by omega, by omega⟩⟩
  dateAndTime_fails outside text marked := by
    apply marked.fails (joined_dateAndTime writes writes')
    show dateAndTime? _ = none
    rw [dateAndTime?_of_writes writes writes']
    split
    case isTrue inRange =>
      rw [CivilDate.ticks?_of_not_inCalendar fun kept => outside ⟨kept, inRange⟩]
      rfl
    case isFalse => rfl

/-- The last half second of a leap day. -/
theorem parse_moment_leapDay :
    ParsesTo " Date_And_Time#2024-02-29-23:59:59.5 ".toList {} .dt 1709251199500 := by
  have field {cs : List Char} {n : Nat} (read : Numeral.natural? 10 cs = some n) : Digits 10 cs n :=
    (natural?_iff (by decide)).mp read
  have date : WritesDate "2024-02-29".toList ⟨2024, 2, 29⟩ :=
    @WritesDate.intro "2024".toList "02".toList "29".toList 2024 2 29 (field rfl) (field rfl) (field rfl)
  have clock : WritesClock "23:59:59.5".toList ⟨23, 59, 59, ['5']⟩ :=
    @WritesClock.fraction "23".toList "59".toList "59".toList ['5'] 23 59 59 (field rfl) (field rfl)
      (field rfl) (List.forall_mem_singleton.mpr rfl)
  have marked : Marked .dateAndTime "2024-02-29-23:59:59.5".toList
      " Date_And_Time#2024-02-29-23:59:59.5 ".toList :=
    @Marked.intro _ _ "DATE_AND_TIME#" [' '] "Date_And_Time#".toList [' '] (by decide) (by decide)
      (List.forall_mem_singleton.mpr rfl) (List.forall_mem_singleton.mpr rfl)
  have kept : CivilDate.InCalendar ⟨2024, 2, 29⟩ := CivilDate.valid_iff_inCalendar.mp (by decide)
  obtain ⟨n, ticks, parsed⟩ := (parse_moment date clock {}).dateAndTime kept (by decide)
  have midnight : CivilDate.ticks? ⟨2024, 2, 29⟩ = some 1709164800000 := by decide +kernel
  obtain rfl : n = 1709164800000 := Option.some.inj (ticks.symm.trans midnight)
  exact parsed _ marked

end Plc.Literal
