/-!
# Reading decimal numbers

Digit strings of any length stand for integers, brought down to the greatest of 64 bits, and for
floating-point numbers, rounded to the nearest.
-/

namespace ActionString.Decimal

/-- The value of a decimal digit. -/
def digitValue (c : Char) : Nat := c.toNat - '0'.toNat

/-- The number that decimal digits stand for. -/
def naturalOf (digits : List Char) : Nat :=
  digits.foldl (fun value c => 10 * value + digitValue c) 0

/-- The number brought down to the greatest of 64 bits. -/
def saturate (value : Nat) : UInt64 :=
  UInt64.ofNat (min value (UInt64.size - 1))

/-- The 64-bit integer that a text of decimal digits stands for. -/
def integerOf (text : String) : UInt64 :=
  saturate (naturalOf text.toList)

/-- The floating-point number next to `whole.fraction`. -/
def unsignedOf (whole fraction : List Char) : Float :=
  Float.ofScientific (naturalOf (whole ++ fraction)) true fraction.length

/-- The floating-point number next to a text of digits with at most one point. -/
def magnitudeOf (text : List Char) : Float :=
  unsignedOf (text.takeWhile (· ≠ '.')) ((text.dropWhile (· ≠ '.')).drop 1)

/-- The floating-point number next to a decimal text with an optional sign. -/
def floatOf (text : String) : Float :=
  match text.toList with
  | '-' :: rest => -magnitudeOf rest
  | '+' :: rest => magnitudeOf rest
  | rest => magnitudeOf rest

/-- A number of 64 bits is kept. -/
theorem toNat_saturate (value : Nat) : (saturate value).toNat = min value (UInt64.size - 1) := by
  simp only [saturate, UInt64.toNat_ofNat', UInt64.size]
  omega

end ActionString.Decimal
