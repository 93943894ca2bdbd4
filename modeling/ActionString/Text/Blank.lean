import ActionString.Text.CodeRange

/-!
# Blank text

Lines are tested for being blank by the Unicode property `White_Space`.
-/

namespace ActionString.Text

/-- The ranges with the Unicode property `White_Space`. -/
def whiteSpaceRanges : List (Nat × Nat) :=
  [(0x9, 0xD), (0x20, 0x20), (0x85, 0x85), (0xA0, 0xA0), (0x1680, 0x1680), (0x2000, 0x200A),
   (0x2028, 0x2029), (0x202F, 0x202F), (0x205F, 0x205F), (0x3000, 0x3000)]

/-- The Unicode property `White_Space`. -/
def isWhiteSpace (c : Char) : Bool :=
  inRanges whiteSpaceRanges c

/-- Whether a text holds nothing but white space. -/
def isBlank (text : String) : Bool :=
  text.toList.all isWhiteSpace

/-- The first character of a text that is not white space. -/
def firstVisible? (text : String) : Option Char :=
  (text.toList.dropWhile isWhiteSpace).head?

end ActionString.Text
