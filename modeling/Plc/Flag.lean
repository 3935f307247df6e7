/-!
# Flags of a value

Attributes are set by the host and survive every change of type. State flags belong to the operators
and function blocks, which keep there what they have to remember between two calls.
-/

namespace Plc

/-- What the host can say about a value. -/
inductive Attribute where
  /-- Reached by a collector that walks over the values. -/
  | mark
  | persist
  | retain
  /-- Kept from one call of a block to the next. -/
  | maintain
  | constant
  deriving DecidableEq, Inhabited, Repr

/-- The attributes of a value that are set. -/
structure Attributes where
  mark : Bool := false
  persist : Bool := false
  retain : Bool := false
  maintain : Bool := false
  constant : Bool := false
  deriving DecidableEq, Inhabited, Repr

/-- Every attribute, in listing order. -/
def Attribute.all : List Attribute := [.mark, .persist, .retain, .maintain, .constant]

/-- The word for an attribute. -/
def Attribute.name : Attribute → String
  | .mark => "MARK"
  | .persist => "PERSIST"
  | .retain => "RETAIN"
  | .maintain => "MAINTAIN"
  | .constant => "CONSTANT"

/-- The attribute is set. -/
def Attributes.has (a : Attributes) : Attribute → Bool
  | .mark => a.mark
  | .persist => a.persist
  | .retain => a.retain
  | .maintain => a.maintain
  | .constant => a.constant

/-- Sets or clears one attribute. -/
def Attributes.set (a : Attributes) (which : Attribute) (on : Bool) : Attributes :=
  match which with
  | .mark => { a with mark := on }
  | .persist => { a with persist := on }
  | .retain => { a with retain := on }
  | .maintain => { a with maintain := on }
  | .constant => { a with constant := on }

/-- What operators and blocks remember. -/
inductive StateFlag where
  /-- The first call, which sets a timer up, is past. -/
  | initialized
  /-- The previous sample of an edge detector. -/
  | flag1
  | flag2
  deriving DecidableEq, Inhabited, Repr

/-- The state flags of a value that are set. -/
structure StateFlags where
  initialized : Bool := false
  flag1 : Bool := false
  flag2 : Bool := false
  deriving DecidableEq, Inhabited, Repr

/-- Every state flag, in listing order. -/
def StateFlag.all : List StateFlag := [.initialized, .flag1, .flag2]

/-- The word for a state flag. -/
def StateFlag.name : StateFlag → String
  | .initialized => "INITIALIZED"
  | .flag1 => "FLAG1"
  | .flag2 => "FLAG2"

/-- The state flag is set. -/
def StateFlags.has (s : StateFlags) : StateFlag → Bool
  | .initialized => s.initialized
  | .flag1 => s.flag1
  | .flag2 => s.flag2

/-- Sets or clears one state flag. -/
def StateFlags.set (s : StateFlags) (which : StateFlag) (on : Bool) : StateFlags :=
  match which with
  | .initialized => { s with initialized := on }
  | .flag1 => { s with flag1 := on }
  | .flag2 => { s with flag2 := on }

end Plc
