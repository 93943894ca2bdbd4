/-!
# Shortest decimals

The shortest decimal of a floating-point number is the one with the fewest digits that reads back
as that number, and of those the one nearest to it. It is found in exact arithmetic: a number
`mantissa · 2^exponent` is read back from every decimal of an interval around it, and for each
count of digits the two decimals next to the number are tested.
-/

namespace ActionString.Decimal

/-- A positive floating-point number `mantissa · 2^exponent`. The gap to the number below is half
as wide as the gap above when `narrowBelow` holds. -/
structure Binary where
  mantissa : Nat
  exponent : Int
  narrowBelow : Bool
  deriving DecidableEq, Repr

/-- The magnitude of the floating-point number with the given bits, when it is finite and not
zero. -/
def Binary.ofBits? (bits : UInt64) : Option Binary :=
  let fraction : Nat := bits.toNat % 0x10000000000000
  let exponent : Nat := bits.toNat / 0x10000000000000 % 0x800
  if exponent = 0x7FF then none
  else if exponent = 0 then
    if fraction = 0 then none else some ⟨fraction, -1074, false⟩
  else some ⟨0x10000000000000 + fraction, (exponent : Int) - 1075, fraction = 0 && 1 < exponent⟩

/-- A decimal number `digits · 10^exponent`. -/
structure Scaled where
  digits : Nat
  exponent : Int
  deriving DecidableEq, Repr

/-- The factors `(up, down)` such that `base ^ exponent = up / down`. -/
def powerFactors (base : Nat) (exponent : Int) : Nat × Nat :=
  (base.pow exponent.toNat, base.pow (-exponent).toNat)

/-- A number `numerator · unit / denominator` whose `unit / denominator` is a quarter of the gap to
the number above, so that the midpoints to both neighbours are whole multiples of it too. -/
structure Quarters where
  numerator : Nat
  unit : Nat
  denominator : Nat

/-- A binary number in quarters of the gap above it. -/
def Binary.quarters (number : Binary) : Quarters :=
  let (up, down) := powerFactors 2 (number.exponent - 2)
  ⟨4 * number.mantissa, up, down⟩

/-- Whether `digits · 10^exponent` reads back as the number: it lies between the midpoints to the
neighbours, ends included when the mantissa is even. -/
def Binary.readsBack (number : Binary) (decimal : Scaled) : Bool :=
  let value := number.quarters
  let (up, down) := powerFactors 10 decimal.exponent
  let candidate := decimal.digits * up * value.denominator
  let below := if number.narrowBelow then 1 else 2
  let low := (value.numerator - below) * value.unit * down
  let high := (value.numerator + 2) * value.unit * down
  if number.mantissa % 2 = 0 then low ≤ candidate && candidate ≤ high
  else low < candidate && candidate < high

/-- The two decimals next to the number with a given exponent, the lower one first. -/
def Binary.neighbours (number : Binary) (exponent : Int) : Scaled × Scaled :=
  let value := number.quarters
  let (up, down) := powerFactors 10 exponent
  let digits := value.numerator * value.unit * down / (up * value.denominator)
  (⟨digits, exponent⟩, ⟨digits + 1, exponent⟩)

/-- Whether the lower of two neighbouring decimals is nearer to the number; of two equally near
ones it is the one with an even last digit. -/
def Binary.lowerIsNearer (number : Binary) (lower : Scaled) : Bool :=
  let value := number.quarters
  let (up, down) := powerFactors 10 lower.exponent
  let middle := (2 * lower.digits + 1) * up * value.denominator
  let twice := 2 * (value.numerator * value.unit * down)
  if twice = middle then lower.digits % 2 = 0 else twice < middle

/-- The decimal with a given exponent that reads back as the number and is nearest to it. -/
def Binary.decimalAt? (number : Binary) (exponent : Int) : Option Scaled :=
  let (lower, upper) := number.neighbours exponent
  match number.readsBack lower, number.readsBack upper with
  | true, true => some (if number.lowerIsNearer lower then lower else upper)
  | true, false => some lower
  | false, true => some upper
  | false, false => none

/-- The count of digits before the point of the number; it is zero or negative when the number is
below one and zeros follow the point. -/
def Binary.magnitude (number : Binary) : Int :=
  let value := number.quarters
  let numerator := value.numerator * value.unit
  if value.denominator ≤ numerator then
    (Nat.toDigits 10 (numerator / value.denominator)).length
  else
    match (List.range 400).find? fun zeros => value.denominator ≤ numerator * Nat.pow 10 zeros with
    | some zeros => 1 - (zeros : Int)
    | none => 0

/-- The shortest decimal of the number. Seventeen digits always suffice. -/
def Binary.shortest (number : Binary) : Scaled :=
  let magnitude := number.magnitude
  let found := (List.range 17).findSome? fun count =>
    number.decimalAt? (magnitude - (count + 1 : Nat))
  found.getD (number.neighbours (magnitude - 17)).1

end ActionString.Decimal
