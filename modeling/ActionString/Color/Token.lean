import ActionString.Color.Palette
import ActionString.Text.Lowercase
import ActionString.Text.Units

/-!
# Colour tokens

A token stands for a colour in one of three ways, tried in this order: it is a name of the palette,
it begins with hexadecimal digits, or it is hashed.
-/

namespace ActionString

namespace Color

/-- The value of a hexadecimal digit. -/
def hexDigit? (c : Char) : Option Nat :=
  if '0' ≤ c ∧ c ≤ '9' then some (c.toNat - '0'.toNat)
  else if 'a' ≤ c ∧ c ≤ 'f' then some (c.toNat - 'a'.toNat + 10)
  else if 'A' ≤ c ∧ c ≤ 'F' then some (c.toNat - 'A'.toNat + 10)
  else none

/-- The values of the hexadecimal digits at the front of a text. -/
def leadingHexDigits : List Char → List Nat
  | [] => []
  | c :: rest =>
    match hexDigit? c with
    | some digit => digit :: leadingHexDigits rest
    | none => []

/-- The first number that does not fit into 128 bits. -/
def accumulatorSize : Nat := 0x100000000000000000000000000000000

/-- The number that hexadecimal digits stand for, while it fits into 128 bits. -/
def accumulateHex (value : Nat) : List Nat → Option Nat
  | [] => some value
  | digit :: rest =>
    if value * 16 + digit < accumulatorSize then accumulateHex (value * 16 + digit) rest
    else none

/-- Bits `shift` to `shift + 7` of a signed word: the remainder by 256 after an arithmetic shift,
lifted into range when it is negative. -/
def channelAt (word shift : Int32) : UInt8 :=
  let remainder := (word >>> shift) % 256
  clampChannel (if remainder < 0 then remainder + 256 else remainder).toInt

/-- The colour whose channels are the three low bytes of a signed word. -/
def ofWord (word : Int32) : Color :=
  ⟨channelAt word 16, channelAt word 8, channelAt word 0⟩

/-- The colour that the hexadecimal digits at the front of a token stand for: white beyond 64 bits,
else the low bytes of their value. -/
def ofHexDigits? (token : String) : Option Color :=
  match leadingHexDigits token.toList with
  | [] => none
  | digits =>
    match accumulateHex 0 digits with
    | none => some white
    | some value => some (if value < UInt64.size then ofWord (Int32.ofNat value) else white)

/-- One step of the hash: thirty-one times the hash so far and the next unit, in 32 bits. -/
def hashStep (hash : Int32) (unit : Nat) : Int32 :=
  Int32.ofNat unit + ((hash <<< 5) - hash)

/-- The hash of a text over its UTF-16 code units. -/
def hashOf (token : String) : Int32 :=
  (Text.units token.toList).foldl hashStep 0

/-- The byte of a signed word that a mask cuts out, shifted down to the lowest place. -/
def maskedByte (word mask shift : Int32) : UInt8 :=
  ((word &&& mask) >>> shift).toInt8.toUInt8

/-- The colour that a token is hashed to: the three low bytes of its hash, each cut out by a mask. -/
def ofHash (token : String) : Color :=
  let hash := hashOf token
  ⟨maskedByte hash 0x00FF0000 16, maskedByte hash 0x0000FF00 8, maskedByte hash 0x000000FF 0⟩

/-- The colour that a token stands for, whatever its case. -/
def ofToken (token : String) : Color :=
  let token := Text.lowercase token
  match named? token with
  | some color => color
  | none => (ofHexDigits? token).getD (ofHash token)

end Color

end ActionString
