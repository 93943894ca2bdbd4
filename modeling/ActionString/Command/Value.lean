import ActionString.Color.Basic
import ActionString.Geometry

/-!
# Field values

The value of a field has one of nine forms.
-/

namespace ActionString

/-- The value of a field. -/
inductive Value where
  | bool (value : Bool)
  | integer (value : UInt64)
  | float (value : Float)
  | text (value : String)
  | color (value : Color)
  | vector (value : Axes)
  | position (value : Position)
  | altitude (value : Altitude)
  | integers (values : List UInt64)
  deriving DecidableEq, Repr

/-- The form of a field value. -/
inductive ValueForm where
  | bool
  | integer
  | float
  | text
  | color
  | vector
  | position
  | altitude
  | integers
  deriving DecidableEq, Repr

namespace Value

/-- The form of a value. -/
def form : Value → ValueForm
  | bool _ => .bool
  | integer _ => .integer
  | float _ => .float
  | text _ => .text
  | color _ => .color
  | vector _ => .vector
  | position _ => .position
  | altitude _ => .altitude
  | integers _ => .integers

/-- The text of a value that is one. -/
def text? : Value → Option String
  | text value => some value
  | _ => none

/-- The integer of a value that is one. -/
def integer? : Value → Option UInt64
  | integer value => some value
  | _ => none

end Value

end ActionString
