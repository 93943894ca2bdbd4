/-!
# Colours

A colour has three channels from 0 to 255.
-/

namespace ActionString

/-- A colour by its red, green and blue channels. -/
structure Color where
  red : UInt8
  green : UInt8
  blue : UInt8
  deriving DecidableEq, Repr, Inhabited

namespace Color

/-- The colour with every channel at its greatest. -/
def white : Color := ⟨255, 255, 255⟩

/-- A channel brought into the range from 0 to 255. -/
def clampChannel (channel : Int) : UInt8 :=
  UInt8.ofNat (min channel.toNat 255)

/-- The colour with channels of any size brought into their range. -/
def clamped (red green blue : Int) : Color :=
  ⟨clampChannel red, clampChannel green, clampChannel blue⟩

end Color

end ActionString
