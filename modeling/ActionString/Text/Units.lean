/-!
# UTF-16 code units

A character up to U+FFFF is one unit. One above is a pair of surrogates, the high one first.
-/

namespace ActionString.Text

/-- The units of one character. -/
def charUnits (c : Char) : List Nat :=
  if c.toNat < 0x10000 then [c.toNat]
  else
    let rest := c.toNat - 0x10000
    [0xD800 + rest / 0x400, 0xDC00 + rest % 0x400]

/-- The units of a text. -/
def units (text : List Char) : List Nat :=
  text.flatMap charUnits

end ActionString.Text
