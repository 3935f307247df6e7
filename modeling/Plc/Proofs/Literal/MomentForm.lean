import Plc.Proofs.Literal.Moment

/-!
# What a date or a time of day may look like

A date is documented as `YYYY-MM-DD`, a time of day as `HH:MM:SS` or `HH:MM:SS.f`, and both together as a
date, a hyphen and a time of day. The readers cut a text at its hyphens and colons and leave the fields to
the reader of integers, and so they take a little more than that. A field may have a sign: a plus anywhere,
and in a time of day a minus in front of a zero. And a point may be the end of a time of day.

The forms are stated once, for any way of writing the fields, and used twice: for what is documented, where
fields are runs of digits, and for what is read, where they are signed.

Main statements:

* `date?_eq_some_iff`, `timeOfDay?_eq_some_iff`, `exists_moment?_iff`: what the readers take, exactly.
* `documented_iff_plain`: which of it has the documented form.
* `moment_form`: both together, for the whole literal.
-/

namespace Plc.Literal

variable {cs ds ss fs body : List Char} {n : Int} {d : CivilDate} {t : ClockTime}

/-! ## §1 Forms -/

/-- A year, a month and a day with hyphens between, each written as the relation says. -/
inductive DateForm (Field : List Char → Int → Prop) : List Char → CivilDate → Prop where
  | intro {ys ms ds : List Char} {year month day : Int} : Field ys year → Field ms month → Field ds day →
      DateForm Field (ys ++ '-' :: (ms ++ '-' :: ds)) ⟨year, month, day⟩

/-- Seconds, and a fraction of a second after a point if there is one. -/
inductive SecondsForm (Field : List Char → Int → Prop) (Fraction : List Char → Prop) :
    List Char → Nat → List Char → Prop where
  | whole {ss : List Char} {second : Nat} : Field ss second → SecondsForm Field Fraction ss second []
  | fraction {ss fs : List Char} {second : Nat} : Field ss second → Fraction fs →
      SecondsForm Field Fraction (ss ++ '.' :: fs) second fs

/-- Hours, minutes and seconds with colons between. -/
inductive ClockForm (Field : List Char → Int → Prop) (Fraction : List Char → Prop) :
    List Char → ClockTime → Prop where
  | intro {hs ms ss fs : List Char} {hour minute second : Nat} : Field hs hour → Field ms minute →
      SecondsForm Field Fraction ss second fs →
        ClockForm Field Fraction (hs ++ ':' :: (ms ++ ':' :: ss)) ⟨hour, minute, second, fs⟩

/-- The kinds of dates and times. -/
def momentKinds : List LiteralKind := [.date, .timeOfDay, .dateAndTime]

/-- A body of one of these kinds. Of several hyphens it is the last one that joins a date to a time of
day. -/
def BodyForm (Date : List Char → CivilDate → Prop) (Clock : List Char → ClockTime → Prop) :
    LiteralKind → List Char → Prop
  | .date, body => ∃ d, Date body d
  | .timeOfDay, body => ∃ t, Clock body t
  | .dateAndTime, body => ∃ ds cs, body = ds ++ '-' :: cs ∧ '-' ∉ cs ∧ (∃ d, Date ds d) ∧ ∃ t, Clock cs t
  | _, _ => False

/-- Digits and nothing else. There may be none. -/
def Digital (cs : List Char) : Prop := ∀ c ∈ cs, c.isDigit = true

/-- Digits and nothing else, at least one. -/
def DigitRun (cs : List Char) : Prop := cs ≠ [] ∧ Digital cs

/-- A documented field, whatever it stands for. -/
def DigitField (cs : List Char) (_ : Int) : Prop := DigitRun cs

/-- The documented form: every field is a run of digits, and so is what comes after a point. -/
def Documented : LiteralKind → List Char → Prop :=
  BodyForm (DateForm DigitField) (ClockForm DigitField DigitRun)

/-- A signed field of a date. A minus would be one hyphen more. -/
def DateField (cs : List Char) (n : Int) : Prop := Signed cs n ∧ '-' ∉ cs

/-- A date of the calendar, its fields being signed. -/
def ReadDate (ds : List Char) (d : CivilDate) : Prop := DateForm DateField ds d ∧ d.InCalendar

/-- A time of the day, its fields being signed and its fraction perhaps empty. -/
def ReadClock (cs : List Char) (t : ClockTime) : Prop := ClockForm Signed Digital cs t ∧ t.InRange

/-- What is read as a date or time. -/
def Readable : LiteralKind → List Char → Prop := BodyForm ReadDate ReadClock

/-- The body has no sign, and no point at its end. Where there is a date, a minus is a hyphen. -/
def Plain (kind : LiteralKind) (body : List Char) : Prop :=
  '+' ∉ body ∧ (kind = .timeOfDay → '-' ∉ body) ∧ body.getLast? ≠ some '.'

/-! ## §2 The readers of fields -/

theorem field?_eq_some_iff : field? cs = some n ↔ Signed cs n ∧ -2 ^ 63 ≤ n ∧ n < 2 ^ 63 := by
  unfold field? Numeral.integerWithin?
  rw [Option.filter_eq_some_iff, integer?_iff, Bool.and_eq_true, decide_eq_true_eq, decide_eq_true_eq,
    Int.le_sub_one_iff]

theorem fieldBelow?_eq_some_iff {limit : Int} (small : limit ≤ 2 ^ 63) :
    fieldBelow? limit cs = some n ↔ Signed cs n ∧ 0 ≤ n ∧ n < limit := by
  unfold fieldBelow?
  rw [Option.filter_eq_some_iff, field?_eq_some_iff, Bool.and_eq_true, decide_eq_true_eq,
    decide_eq_true_eq]
  constructor
  · rintro ⟨⟨signed, _⟩, bounds⟩
    exact ⟨signed, bounds⟩
  · rintro ⟨signed, bounds⟩
    exact ⟨⟨signed, by omega⟩, bounds⟩

theorem Signed.joined (signed : Signed cs n) : Joined ['+', '-'] cs := by
  have front {sign : Char} {m : Nat} (known : sign ∈ ['+', '-']) {cs : List Char} (digits : Digits 10 cs m) :
      Joined ['+', '-'] (sign :: cs) :=
    List.forall_mem_cons.mpr ⟨Or.inr known, digits.joined⟩
  cases signed with
  | unsigned digits => exact digits.joined
  | plus digits => exact front (by decide) digits
  | minus digits => exact front (by decide) digits

/-! ## §3 The readers of dates and times -/

theorem date?_eq_some_iff : date? cs = some n ↔ ∃ d, DateForm DateField cs d ∧ d.ticks? = some n := by
  constructor
  · intro read
    unfold date? at read
    split at read
    case h_1 ys ms ds parts =>
      obtain ⟨rfl, plain, plain', plain''⟩ := Text.fields_eq_triple_iff.mp parts
      simp only [Option.bind_eq_bind, Option.bind_eq_some_iff, field?_eq_some_iff] at read
      obtain ⟨year, ⟨signed, _⟩, month, ⟨signed', _⟩, day, ⟨signed'', _⟩, ticks⟩ := read
      exact ⟨_, .intro ⟨signed, plain⟩ ⟨signed', plain'⟩ ⟨signed'', plain''⟩, ticks⟩
    case h_2 => cases read
  · rintro ⟨_, @⟨ys, ms, ds, year, month, day, ⟨signed, plain⟩, ⟨signed', plain'⟩, ⟨signed'', plain''⟩⟩, ticks⟩
    have parts : Text.fields '-' (ys ++ '-' :: (ms ++ '-' :: ds)) = [ys, ms, ds] :=
      Text.fields_eq_triple_iff.mpr ⟨rfl, plain, plain', plain''⟩
    -- A day of the calendar is far from the limits of 64 bits.
    obtain ⟨⟨years, years'⟩, ⟨months, months'⟩, days, days'⟩ := (CivilDate.exists_days ticks).1
    have length := CivilDate.daysInMonth_le year month
    dsimp only at years years' months months' days days'
    have read : field? ys = some year := field?_eq_some_iff.mpr ⟨signed, by omega, by omega⟩
    have read' : field? ms = some month := field?_eq_some_iff.mpr ⟨signed', by omega, by omega⟩
    have read'' : field? ds = some day := field?_eq_some_iff.mpr ⟨signed'', by omega, by omega⟩
    unfold date?
    simp only [parts, read, read', read'']
    exact ticks

theorem fractionMillis?_eq_some_iff :
    fractionMillis? fs = some n ↔ Digital fs ∧ n = leadingMillis fs := by
  by_cases digits : Digital fs
  case pos =>
    rw [fractionMillis?_of_isDigit digits, Option.some.injEq, eq_comm]
    exact (and_iff_right digits).symm
  case neg =>
    have refused : fractionMillis? fs = none := if_neg fun all => digits (List.all_eq_true.mp all)
    simp [refused, digits]

theorem secondsMillis?_eq_some_iff :
    secondsMillis? ss = some n ↔
      ∃ second fs, SecondsForm Signed Digital ss second fs ∧ second < 60 ∧
        n = second * 1000 + leadingMillis fs := by
  have nothing : (leadingMillis [] : Int) = 0 := by decide
  constructor
  · intro read
    unfold secondsMillis? at read
    split at read
    case h_1 whole fraction cut =>
      obtain ⟨rfl, _⟩ := Text.splitFirst?_eq_some_iff.mp cut
      simp only [Option.bind_eq_bind, Option.bind_eq_some_iff, Option.pure_def, Option.some.injEq,
        fieldBelow?_eq_some_iff (show (60 : Int) ≤ 2 ^ 63 by decide), fractionMillis?_eq_some_iff] at read
      obtain ⟨second, ⟨signed, nonneg, lt⟩, _, ⟨digits, rfl⟩, rfl⟩ := read
      obtain ⟨second, rfl⟩ := Int.eq_ofNat_of_zero_le nonneg
      exact ⟨second, fraction, .fraction signed digits, by omega, rfl⟩
    case h_2 =>
      simp only [Option.map_eq_some_iff, fieldBelow?_eq_some_iff (show (60 : Int) ≤ 2 ^ 63 by decide)] at read
      obtain ⟨second, ⟨signed, nonneg, lt⟩, rfl⟩ := read
      obtain ⟨second, rfl⟩ := Int.eq_ofNat_of_zero_le nonneg
      exact ⟨second, [], .whole signed, by omega, by rw [nothing, Int.add_zero]⟩
  · rintro ⟨second, fs, form, lt, rfl⟩
    have below {cs : List Char} (signed : Signed cs second) : fieldBelow? 60 cs = some (second : Int) :=
      (fieldBelow?_eq_some_iff (by decide)).mpr ⟨signed, by omega, by omega⟩
    unfold secondsMillis?
    cases form with
    | whole signed =>
      have uncut : Text.splitFirst? '.' ss = none :=
        Text.splitFirst?_eq_none_iff.mpr (signed.joined.notMem rfl (by decide))
      simp only [uncut, below signed, nothing, Int.add_zero]
      rfl
    | @fraction whole _ _ signed digits =>
      have cut : Text.splitFirst? '.' (whole ++ '.' :: fs) = some (whole, fs) :=
        Text.splitFirst?_eq_some_iff.mpr ⟨rfl, signed.joined.notMem rfl (by decide)⟩
      simp only [cut, below signed, fractionMillis?_of_isDigit digits]
      rfl

theorem SecondsForm.joined_signed {second : Nat} (form : SecondsForm Signed Digital ss second fs) :
    Joined ['+', '-', '.'] ss := by
  cases form with
  | whole signed => exact signed.joined.mono (by simp)
  | fraction signed digits =>
    exact (signed.joined.mono (by simp)).append (joined_of_isDigit digits) (by decide)

theorem timeOfDay?_eq_some_iff :
    timeOfDay? cs = some n ↔ ∃ t, ReadClock cs t ∧ n = t.ticks := by
  constructor
  · intro read
    unfold timeOfDay? at read
    split at read
    case h_1 hs ms ss parts =>
      obtain ⟨rfl, _⟩ := Text.fields_eq_triple_iff.mp parts
      simp only [Option.bind_eq_bind, Option.bind_eq_some_iff, Option.pure_def, Option.some.injEq,
        fieldBelow?_eq_some_iff (show (24 : Int) ≤ 2 ^ 63 by decide),
        fieldBelow?_eq_some_iff (show (60 : Int) ≤ 2 ^ 63 by decide), secondsMillis?_eq_some_iff] at read
      obtain ⟨hour, ⟨signed, nonneg, lt⟩, minute, ⟨signed', nonneg', lt'⟩, _,
        ⟨second, fs, form, lt'', rfl⟩, rfl⟩ := read
      obtain ⟨hour, rfl⟩ := Int.eq_ofNat_of_zero_le nonneg
      obtain ⟨minute, rfl⟩ := Int.eq_ofNat_of_zero_le nonneg'
      refine ⟨_, ⟨.intro signed signed' form, ?_, ?_, lt''⟩, ?_⟩
      · exact Int.ofNat_lt.mp lt
      · exact Int.ofNat_lt.mp lt'
      · simp only [ClockTime.ticks]
        omega
    case h_2 => cases read
  · rintro ⟨_, ⟨@⟨hs, ms, ss, fs, hour, minute, second, signed, signed', form⟩, lt, lt', lt''⟩, rfl⟩
    have parts : Text.fields ':' (hs ++ ':' :: (ms ++ ':' :: ss)) = [hs, ms, ss] :=
      Text.fields_eq_triple_iff.mpr ⟨rfl, signed.joined.notMem rfl (by decide),
        signed'.joined.notMem rfl (by decide), form.joined_signed.notMem rfl (by decide)⟩
    dsimp only at lt lt' lt''
    have hours : fieldBelow? 24 hs = some (hour : Int) :=
      (fieldBelow?_eq_some_iff (by decide)).mpr ⟨signed, by omega, by omega⟩
    have minutes : fieldBelow? 60 ms = some (minute : Int) :=
      (fieldBelow?_eq_some_iff (by decide)).mpr ⟨signed', by omega, by omega⟩
    have seconds := secondsMillis?_eq_some_iff.mpr ⟨second, fs, form, lt'', rfl⟩
    unfold timeOfDay?
    simp only [parts, hours, minutes, seconds]
    refine congrArg some ?_
    simp only [ClockTime.ticks]
    omega

theorem SecondsForm.digital {second : Nat} (form : SecondsForm Signed Digital ss second fs) :
    Digital fs := by
  cases form with
  | whole => simp [Digital]
  | fraction _ digits => exact digits

theorem ReadClock.ticks_bounds (reads : ReadClock cs t) : 0 ≤ t.ticks ∧ t.ticks < 86400000 := by
  obtain ⟨form, hour, minute, second⟩ := reads
  have millis : leadingMillis t.fraction < 1000 := by
    cases form with
    | intro _ _ seconds => exact leadingMillis_lt seconds.digital
  unfold ClockTime.ticks
  omega

/-- A date and a time of day never leave the range of ticks, so nothing else can fail. -/
theorem exists_dateAndTime?_iff :
    (∃ n, dateAndTime? body = some n) ↔ Readable .dateAndTime body := by
  constructor
  · rintro ⟨n, read⟩
    unfold dateAndTime? at read
    split at read
    case h_1 ds cs cut =>
      obtain ⟨rfl, absent⟩ := Text.splitLast?_eq_some_iff.mp cut
      simp only [Option.bind_eq_bind, Option.bind_eq_some_iff, date?_eq_some_iff,
        timeOfDay?_eq_some_iff] at read
      obtain ⟨_, ⟨d, form, ticks⟩, _, ⟨t, reads, rfl⟩, _⟩ := read
      have kept : d.InCalendar := CivilDate.valid_iff_inCalendar.mp (CivilDate.exists_days ticks).1
      exact ⟨ds, cs, rfl, absent, ⟨d, form, kept⟩, t, reads⟩
    case h_2 => cases read
  · rintro ⟨ds, cs, rfl, absent, ⟨d, form, kept⟩, t, reads⟩
    obtain ⟨m, ticks⟩ := CivilDate.exists_ticks kept
    have date := CivilDate.ticks_bounds ticks
    have clock := reads.ticks_bounds
    refine ⟨m + t.ticks, ?_⟩
    unfold dateAndTime?
    rw [Text.splitLast?_append absent]
    simp only [date?_eq_some_iff.mpr ⟨d, form, ticks⟩, timeOfDay?_eq_some_iff.mpr ⟨t, reads, rfl⟩]
    exact Checked.is_ofInt ⟨by omega, by omega⟩

theorem exists_moment?_iff {kind : LiteralKind} (moment : kind ∈ momentKinds) :
    (∃ n, moment? kind body = some n) ↔ Readable kind body := by
  simp only [momentKinds, List.mem_cons, List.not_mem_nil, or_false] at moment
  rcases moment with rfl | rfl | rfl
  · show (∃ n, date? body = some n) ↔ ∃ d, ReadDate body d
    constructor
    · rintro ⟨n, read⟩
      obtain ⟨d, form, ticks⟩ := date?_eq_some_iff.mp read
      exact ⟨d, form, CivilDate.valid_iff_inCalendar.mp (CivilDate.exists_days ticks).1⟩
    · rintro ⟨d, form, kept⟩
      obtain ⟨n, ticks⟩ := CivilDate.exists_ticks kept
      exact ⟨n, date?_eq_some_iff.mpr ⟨d, form, ticks⟩⟩
  · show (∃ n, timeOfDay? body = some n) ↔ ∃ t, ReadClock body t
    simp only [timeOfDay?_eq_some_iff]
    exact ⟨fun ⟨_, t, reads, _⟩ => ⟨t, reads⟩, fun ⟨t, reads⟩ => ⟨_, t, reads, rfl⟩⟩
  · exact exists_dateAndTime?_iff

/-! ## §4 The documented form -/

/-- A signed field without its sign is a run of digits. -/
theorem Signed.digitRun (signed : Signed cs n) (noPlus : '+' ∉ cs) (noMinus : '-' ∉ cs) : DigitRun cs := by
  cases signed with
  | unsigned digits => exact ⟨(digits?_of_digits (by decide) digits).2, digits.isDigit⟩
  | plus => exact absurd List.mem_cons_self noPlus
  | minus => exact absurd List.mem_cons_self noMinus

theorem DigitRun.joined {separators : List Char} (run : DigitRun cs) : Joined separators cs :=
  joined_of_isDigit run.2

/-- A text that ends in a run of digits does not end in a point. -/
theorem DigitRun.getLast?_ne (run : DigitRun cs) (ends : cs <:+ body) : body.getLast? ≠ some '.' := by
  obtain ⟨front, rfl⟩ := ends
  obtain ⟨some, digits⟩ := run
  rw [List.getLast?_append_of_ne_nil front some, List.getLast?_eq_some_getLast some]
  intro point
  have digit := digits _ (List.getLast_mem some)
  rw [Option.some.inj point] at digit
  contradiction

theorem suffix_joined (front : List Char) (sep : Char) (back : List Char) : back <:+ front ++ sep :: back :=
  (List.suffix_cons sep back).trans (List.suffix_append front _)

namespace DateForm

theorem joined (form : DateForm DigitField ds d) : Joined ['-'] ds := by
  cases form with
  | intro year month day =>
    exact year.joined.append (month.joined.append day.joined (by decide)) (by decide)

theorem exists_last (form : DateForm DigitField ds d) :
    ∃ last, DigitRun last ∧ last <:+ ds := by
  cases form with
  | intro _ _ day => exact ⟨_, day, (suffix_joined _ _ _).trans (suffix_joined _ _ _)⟩

/-- The only sign that a date can have is a plus. -/
theorem unsigned (form : DateForm DateField ds d) (noPlus : '+' ∉ ds) :
    DateForm DigitField ds d := by
  have plain {field : List Char} {value : Int} (date : DateField field value) (inside : field ⊆ ds) :
      DigitRun field := date.1.digitRun (fun mem => noPlus (inside mem)) date.2
  cases form with
  | intro year month day =>
    exact .intro (plain year fun c mem => by simp [mem]) (plain month fun c mem => by simp [mem])
      (plain day fun c mem => by simp [mem])

end DateForm

namespace SecondsForm

variable {second : Nat} (form : SecondsForm DigitField DigitRun ss second fs)
include form

theorem joined : Joined ['.'] ss := by
  cases form with
  | whole second => exact second.joined
  | fraction second fraction => exact second.joined.append fraction.joined (by decide)

theorem exists_last : ∃ last, DigitRun last ∧ last <:+ ss := by
  cases form with
  | whole second => exact ⟨_, second, List.suffix_rfl⟩
  | fraction _ fraction => exact ⟨_, fraction, suffix_joined _ _ _⟩

end SecondsForm

namespace ClockForm

theorem joined (form : ClockForm DigitField DigitRun cs t) : Joined [':', '.'] cs := by
  cases form with
  | intro hours minutes seconds =>
    have behind : Joined [':', '.'] (_ ++ ':' :: _) :=
      minutes.joined.append (seconds.joined.mono (by simp)) (by decide)
    exact hours.joined.append behind (by decide)

theorem exists_last (form : ClockForm DigitField DigitRun cs t) :
    ∃ last, DigitRun last ∧ last <:+ cs := by
  cases form with
  | intro _ _ seconds =>
    obtain ⟨last, run, ends⟩ := seconds.exists_last
    exact ⟨last, run, ends.trans ((suffix_joined _ _ _).trans (suffix_joined _ _ _))⟩

/-- A point at the end is a fraction without digits. -/
theorem unsigned (form : ClockForm Signed Digital cs t)
    (noPlus : '+' ∉ cs) (noMinus : '-' ∉ cs) (noPoint : cs.getLast? ≠ some '.') :
    ClockForm DigitField DigitRun cs t := by
  have plain {field : List Char} {value : Int} (signed : Signed field value) (inside : field ⊆ cs) :
      DigitRun field :=
    signed.digitRun (fun mem => noPlus (inside mem)) fun mem => noMinus (inside mem)
  cases form with
  | intro hours minutes seconds =>
    refine .intro (plain hours fun c mem => by simp [mem]) (plain minutes fun c mem => by simp [mem]) ?_
    cases seconds with
    | whole second => exact .whole (plain second fun c mem => by simp [mem])
    | fraction second digits =>
      refine .fraction (plain second fun c mem => by simp [mem]) ⟨?_, digits⟩
      rintro rfl
      simp [List.getLast?_append, List.getLast?_cons] at noPoint

end ClockForm

theorem documented_iff_plain {kind : LiteralKind} (readable : Readable kind body) :
    Documented kind body ↔ Plain kind body := by
  cases kind with
  | date =>
    obtain ⟨d, form, _⟩ := readable
    constructor
    · rintro ⟨_, written⟩
      obtain ⟨last, run, ends⟩ := written.exists_last
      exact ⟨written.joined.notMem rfl (by decide), nofun, run.getLast?_ne ends⟩
    · rintro ⟨noPlus, _, _⟩
      exact ⟨d, form.unsigned noPlus⟩
  | timeOfDay =>
    obtain ⟨t, form, _⟩ := readable
    constructor
    · rintro ⟨_, written⟩
      obtain ⟨last, run, ends⟩ := written.exists_last
      exact ⟨written.joined.notMem rfl (by decide), fun _ => written.joined.notMem rfl (by decide),
        run.getLast?_ne ends⟩
    · rintro ⟨noPlus, noMinus, noPoint⟩
      exact ⟨t, form.unsigned noPlus (noMinus rfl) noPoint⟩
  | dateAndTime =>
    obtain ⟨ds, cs, rfl, hyphen, ⟨d, date, _⟩, t, clock, _⟩ := readable
    constructor
    · rintro ⟨ds', cs', same, _, ⟨_, date'⟩, _, clock'⟩
      obtain ⟨last, run, ends⟩ := clock'.exists_last
      have joined : Joined ['-', ':', '.'] (ds' ++ '-' :: cs') :=
        (date'.joined.mono (by simp)).append (clock'.joined.mono (by simp)) (by decide)
      rw [same]
      exact ⟨joined.notMem rfl (by decide), nofun, run.getLast?_ne (ends.trans (suffix_joined _ _ _))⟩
    · rintro ⟨noPlus, _, noPoint⟩
      refine ⟨ds, cs, rfl, hyphen, ⟨d, date.unsigned fun mem => noPlus (by simp [mem])⟩, t, ?_⟩
      apply clock.unsigned (fun mem => noPlus (by simp [mem])) hyphen
      intro point
      simp [List.getLast?_append, List.getLast?_cons, point] at noPoint
  | _ => exact readable.elim

/-! ## §5 Literals -/

theorem exists_value?_iff {kind : LiteralKind} (moment : kind ∈ momentKinds) (explicit : Option DataType)
    (profile : LiteralProfile) :
    (∃ v, value? ⟨kind, explicit, body⟩ profile = some v) ↔ ∃ n, moment? kind body = some n := by
  -- What is read is put into a payload of the shape of its type, so it always fits.
  have fits {read : Option Int} {type : DataType} {shape : Shape} (own : shape = type.shape)
      (put : Int → shape.layout.Carrier) :
      (∃ v, (read.bind fun ticks => typed? type ⟨shape, put ticks⟩) = some v) ↔ ∃ n, read = some n := by
    cases read with
    | none => simp
    | some n =>
      have found : typed? type ⟨shape, put n⟩ = some { Value.zero type with payload := ⟨shape, put n⟩ } :=
        if_pos own
      simp [found]
  simp only [momentKinds, List.mem_cons, List.not_mem_nil, or_false] at moment
  rcases moment with rfl | rfl | rfl
  · exact fits rfl _
  · exact fits rfl _
  · exact fits rfl _

/-- What is made of a text that has been taken to be a date or time, with the given body. -/
structure ReadsForm (text : List Char) (kind : LiteralKind) (body : List Char) : Prop where
  parses_iff : ∀ profile, (∃ v, parse text profile = .ok v) ↔ Readable kind body
  /-- Of what denotes a value, only a sign or a point at the end departs from the documented form. -/
  documented_iff : ∀ profile v, parse text profile = .ok v → (Documented kind body ↔ Plain kind body)

/-- **The form of dates and times.** A literal of one of these kinds denotes a value exactly if its body is
readable, and then it has the documented form exactly if it has no sign and no point at its end. -/
theorem moment_form {text : List Char} {literal : Literal} (classified : classify text = .ok literal)
    (moment : literal.kind ∈ momentKinds) : ReadsForm text literal.kind literal.body := by
  have parses (profile : LiteralProfile) :
      (∃ v, parse text profile = .ok v) ↔ Readable literal.kind literal.body := by
    rw [← exists_moment?_iff moment, ← exists_value?_iff moment literal.explicit profile]
    exact ⟨fun ⟨v, parsed⟩ => ⟨v, value?_of_parse classified parsed⟩,
      fun ⟨v, found⟩ => ⟨v, parse_of_value? classified found⟩⟩
  exact ⟨parses, fun profile v parsed => documented_iff_plain ((parses profile).mp ⟨v, parsed⟩)⟩

/-- Two signs and a point, none of them in the documented form. -/
theorem moment_form_signed :
    Readable .timeOfDay "+1:-0:5.".toList ∧ ¬Documented .timeOfDay "+1:-0:5.".toList := by
  have classified : classify "tod#+1:-0:5.".toList = .ok ⟨.timeOfDay, none, "+1:-0:5.".toList⟩ := by
    decide +kernel
  have parsed : parse "tod#+1:-0:5.".toList {} = .ok (Value.ofNumber .tod (.ofInt 3605000)) := by
    decide +kernel
  have form := moment_form classified (by decide)
  refine ⟨(form.parses_iff {}).mp ⟨_, parsed⟩, fun documented => ?_⟩
  have plain := (form.documented_iff {} _ parsed).mp documented
  exact plain.1 (by decide)

/-- A plus in front of the year is no digit, but the date is read. -/
theorem plus_not_documented :
    ¬∀ (text : List Char) (literal : Literal) (profile : LiteralProfile) (v : Value),
      classify text = .ok literal → literal.kind ∈ momentKinds → parse text profile = .ok v →
        Documented literal.kind literal.body := by
  intro always
  have classified : classify "D#+2024-02-29".toList = .ok ⟨.date, none, "+2024-02-29".toList⟩ := by
    decide +kernel
  have parsed : parse "D#+2024-02-29".toList {} = .ok (Value.ofNumber .date (.ofInt 1709164800000)) := by
    decide +kernel
  obtain ⟨d, written⟩ := always _ _ {} _ classified (by decide) parsed
  have noPlus : '+' ∉ "+2024-02-29".toList := written.joined.notMem rfl (by decide)
  exact noPlus (by decide)

end Plc.Literal
