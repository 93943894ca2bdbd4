/-!
# Places and directions

The spatial values that commands carry: one number for each axis, positions and altitudes for
travel.
-/

namespace ActionString

/-- A number for each of the three axes. -/
structure Axes where
  x : Float
  y : Float
  z : Float
  deriving DecidableEq, Repr

namespace Axes

/-- Zero on every axis. -/
def zero : Axes := ⟨0, 0, 0⟩

/-- The same number on every axis. -/
def splat (value : Float) : Axes := ⟨value, value, value⟩

end Axes

/-- A position in a world. -/
inductive Position where
  /-- Distances from the centre of the world, positive to the north and to the east. -/
  | absolute (north east : Float)
  /-- Distances from where the avatar stands. -/
  | relative (x y : Float)
  deriving DecidableEq, Repr

/-- What an altitude is measured from. -/
inductive AltitudeBase where
  /-- The ground of the world. -/
  | absolute
  /-- The present height of the avatar. -/
  | relative
  deriving DecidableEq, Repr

/-- The name of a base in records. -/
def AltitudeBase.name : AltitudeBase → String
  | absolute => "absolute"
  | relative => "relative"

/-- A height with its base. -/
structure Altitude where
  base : AltitudeBase
  value : Float
  deriving DecidableEq, Repr

end ActionString
