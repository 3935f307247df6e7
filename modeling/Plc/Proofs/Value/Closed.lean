import Plc.Operator.Basic

/-!
# Properties that writing keeps

Operators, literals and blocks touch values through a handful of writes only. A property that those
writes keep is kept by all of them. Two sets of writes are told apart:

* `Value.Stable P`: the writes of operators to a result keep `P`.
* `Value.Closed P`: besides, fresh values have `P`, and so do values whose flags, payload or timer
  state are set from outside.

The property of interest is `Value.WellFormed`: the kept categories are those of the type, the payload
has the shape of the type, and a kept checksum is that of the text beside it.
-/

namespace Plc

/-- The payload is no text, or a text as it is made: with its own checksum or with none. -/
def Payload.Genuine (p : Payload) : Prop :=
  ∀ s, p.text? = some s → ∃ content hashed, s = CharString.ofString content hashed

namespace Value

/-- The writes of operators keep the property. -/
structure Stable (P : Value → Prop) : Prop where
  retype : ∀ (v : Value) (t : DataType), P v → P (v.retype t)
  setNumber : ∀ (v : Value) (n : Number), P v → P (v.setNumber n)
  setText : ∀ (v : Value) (content : String) (wide hashed : Bool),
    P v → P (v.setText content wide hashed)
  setDuration : ∀ (v : Value) (d : Duration), P v → P (v.setDuration d)

/-- Fresh values have the property, and no write takes it away. -/
structure Closed (P : Value → Prop) : Prop extends Stable P where
  zero : ∀ t : DataType, P (zero t)
  setPayload : ∀ {v v' : Value} {p : Payload}, p.Genuine → v.setPayload? p = some v' → P v → P v'
  /-- The payload of another value may be put in place. -/
  setPayloadOf : ∀ {v v' source : Value}, P source → v.setPayload? source.payload = some v' →
    P v → P v'
  setTimer : ∀ (v : Value) (s : TimerState), P v → P (v.setTimer s)
  setAttribute : ∀ (v : Value) (which : Attribute) (on : Bool), P v → P (v.setAttribute which on)
  setState : ∀ (v : Value) (which : StateFlag) (on : Bool), P v → P (v.setState which on)

/-! ## §1 Writes made of others -/

section Stable

variable {P : Value → Prop} (stable : Stable P)
include stable

theorem Stable.promote (v : Value) (t : DataType) (holds : P v) : P (v.promote t) := by
  unfold Value.promote promote?
  split
  case isTrue => exact stable.retype v t holds
  case isFalse => exact holds

theorem Stable.widenTo (v : Value) (t : DataType) (holds : P v) : P (v.widenTo t) := by
  rcases v.widenTo_eq t with retyped | kept
  · rw [retyped]
    exact stable.retype v t holds
  · rw [kept]
    exact holds

end Stable

theorem setDuration_zero (d : Duration) : (zero .time).setDuration d = ofDuration d := by
  unfold Value.setDuration Value.ofDuration
  rw [show (zero .time).retype .time = zero .time from retype_self _]

section Closed

variable {P : Value → Prop} (closed : Closed P)
include closed

theorem Closed.ofNumber (t : DataType) (n : Number) : P (Value.ofNumber t n) :=
  closed.setNumber _ n (closed.zero t)

theorem Closed.ofText (content : String) (wide hashed : Bool) :
    P (Value.ofText content wide hashed) :=
  closed.setText _ content wide hashed (closed.zero .null)

theorem Closed.ofDuration (d : Duration) : P (Value.ofDuration d) := by
  rw [← setDuration_zero]
  exact closed.setDuration _ d (closed.zero .time)

end Closed

/-- Every value has the property of being a value. -/
theorem closed_true : Closed fun _ => True where
  retype _ _ _ := trivial
  setNumber _ _ _ := trivial
  setText _ _ _ _ _ := trivial
  setDuration _ _ _ := trivial
  zero _ := trivial
  setPayload _ _ _ := trivial
  setPayloadOf _ _ _ := trivial
  setTimer _ _ _ := trivial
  setAttribute _ _ _ _ := trivial
  setState _ _ _ _ := trivial

end Value

/-! ## §2 Texts and shapes -/

/-- A kept checksum is that of the text. -/
def CharString.Sound (s : CharString) : Prop :=
  ∀ d, s.digest = some d → d = Text.checksum s.content.toUTF8.toList

theorem CharString.sound_ofString (content : String) (hashed : Bool) :
    (ofString content hashed).Sound := by
  intro d kept
  cases hashed with
  | false => cases kept
  | true => exact (Option.some.inj kept).symm

/-- What has a numeric view is no text. -/
theorem Layout.text?_of_number? {l : Layout} {data : l.Carrier} {n : Number}
    (found : l.number? data = some n) : l.text? data = none := by
  cases l <;> first | rfl | cases found

namespace Payload

/-- A text in the payload, if there is one, keeps no wrong checksum. -/
def Sound (p : Payload) : Prop := ∀ s, p.text? = some s → s.Sound

theorem Genuine.sound {p : Payload} (genuine : p.Genuine) : p.Sound := by
  intro s found
  obtain ⟨content, hashed, rfl⟩ := genuine s found
  exact CharString.sound_ofString content hashed

/-- The fresh text keeps no checksum at all. -/
theorem sound_zero (t : DataType) : (zero t).Sound := by
  intro s found d kept
  cases t <;> cases found <;> cases kept

/-- Storing a number neither makes nor changes a text. -/
theorem text?_store (p : Payload) (n : Number) : (p.store n).text? = p.text? := by
  obtain ⟨shape, data⟩ := p
  cases shape <;> rfl

theorem Sound.store {p : Payload} (sound : p.Sound) (n : Number) : (p.store n).Sound := by
  intro s found
  rw [text?_store] at found
  exact sound s found

/-- Only payloads of one shape hold the state of a timer. -/
theorem shape_of_timer? {p : Payload} {s : TimerState} (found : p.timer? = some s) :
    p.shape = .timer := by
  obtain ⟨shape, data⟩ := p
  cases shape <;> first | rfl | cases found

end Payload

/-! ## §3 Well-formed values -/

namespace Value

/-- What is kept beside the type fits it, and what is kept beside a text fits it. -/
structure WellFormed (v : Value) : Prop where
  categories : v.categories = v.type.categories
  shape : v.payload.shape = (Payload.zero v.type).shape
  sound : v.payload.Sound

theorem wellFormed_zero (t : DataType) : (zero t).WellFormed := ⟨rfl, rfl, Payload.sound_zero t⟩

namespace WellFormed

variable {v : Value}

/-- The kept categories answer for the type. -/
theorem belongsAny_eq (wf : v.WellFormed) (allowed : List Category) :
    v.belongsAny allowed = v.type.belongsAny allowed := by
  have each (c : Category) : decide (c ∈ v.categories) = v.type.belongs c := by
    have listed : c ∈ Category.all := by cases c <;> decide
    rw [wf.categories, Bool.eq_iff_iff, decide_eq_true_iff]
    exact ⟨fun kept => (List.mem_filter.mp kept).2, fun member => List.mem_filter.mpr ⟨listed, member⟩⟩
  exact congrArg allowed.any (funext each)

theorem layout (wf : v.WellFormed) : v.payload.shape.layout = v.type.layout :=
  congrArg Shape.layout wf.shape

/-- All three are changed together. -/
theorem retype (wf : v.WellFormed) (t : DataType) : (v.retype t).WellFormed := by
  unfold Value.retype
  split
  case isTrue => exact wf
  case isFalse =>
    cases (if v.carriesNumber then v.number? else none) with
    | none => exact ⟨rfl, rfl, Payload.sound_zero t⟩
    | some n => exact ⟨rfl, Payload.shape_store _ n, (Payload.sound_zero t).store n⟩

/-- A payload of the right shape in place of the old one. -/
theorem withPayload (wf : v.WellFormed) {p : Payload} (shape : p.shape = (Payload.zero v.type).shape)
    (sound : p.Sound) : WellFormed { v with payload := p } := ⟨wf.categories, shape, sound⟩

theorem setNumber (wf : v.WellFormed) (n : Number) : (v.setNumber n).WellFormed :=
  wf.withPayload ((Payload.shape_store _ n).trans wf.shape) (wf.sound.store n)

theorem setText (wf : v.WellFormed) (content : String) (wide hashed : Bool) :
    (v.setText content wide hashed).WellFormed := by
  refine (wf.retype _).withPayload ?_ ?_
  · -- Both types of strings have the shape of strings.
    rw [type_retype]
    cases wide <;> rfl
  · intro s found
    cases found
    exact CharString.sound_ofString content hashed

theorem setDuration (wf : v.WellFormed) (d : Duration) : (v.setDuration d).WellFormed := by
  refine (wf.retype .time).withPayload ?_ ?_
  · rw [type_retype]
    rfl
  · intro s found
    cases found

theorem setPayload? (wf : v.WellFormed) {v' : Value} {p : Payload} (sound : p.Sound)
    (found : v.setPayload? p = some v') : v'.WellFormed := by
  unfold Value.setPayload? at found
  split at found
  case isTrue shape =>
    cases found
    exact wf.withPayload shape sound
  case isFalse => cases found

theorem setTimer (wf : v.WellFormed) (s : TimerState) : (v.setTimer s).WellFormed := by
  unfold Value.setTimer
  split
  case h_1 old found =>
    have shape : v.payload.shape = .timer := Payload.shape_of_timer? found
    refine wf.withPayload (shape.symm.trans wf.shape) ?_
    intro text found
    cases found
  case h_2 => exact wf

end WellFormed

/-- No write makes a well-formed value ill-formed. -/
theorem closed_wellFormed : Closed WellFormed where
  zero := wellFormed_zero
  retype _ t wf := wf.retype t
  setNumber _ n wf := wf.setNumber n
  setText _ content wide hashed wf := wf.setText content wide hashed
  setDuration _ d wf := wf.setDuration d
  setPayload genuine found wf := wf.setPayload? genuine.sound found
  setPayloadOf source found wf := wf.setPayload? source.sound found
  setTimer _ s wf := wf.setTimer s
  setAttribute _ _ _ wf := ⟨wf.categories, wf.shape, wf.sound⟩
  setState _ _ _ wf := ⟨wf.categories, wf.shape, wf.sound⟩

end Value

end Plc
