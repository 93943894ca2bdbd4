import ActionString.Decimal.Shortest

/-!
# Decimal text

The digits of a decimal are written with a point among them while the number is of moderate size,
and otherwise with one digit before the point and a power of ten.
-/

namespace ActionString.Decimal

/-- The sizes for which a number is written without a power of ten: from `10^least` to below
`10^bound`. -/
structure Layout where
  least : Int
  bound : Int
  deriving DecidableEq, Repr

/-- The decimal digits of a number, and the power of ten of the first of them, without zeros at the
end. -/
def significant (number : Scaled) : List Char × Int :=
  let digits := Nat.toDigits 10 number.digits
  let trimmed := (digits.reverse.dropWhile (· = '0')).reverse
  (trimmed, number.exponent + digits.length - 1)

/-- A power of ten with its sign. -/
def exponentText (power : Int) : String :=
  (if power < 0 then "e-" else "e+") ++ toString power.natAbs

/-- Digits with a point after the first `whole` of them, zeros filling what is missing, and at
least one digit on either side. -/
def positional (digits : List Char) (whole : Int) : List Char :=
  if whole ≤ 0 then
    ['0', '.'] ++ List.replicate (-whole).toNat '0' ++ digits
  else
    let count := whole.toNat
    let fraction := digits.drop count
    digits.take count ++ List.replicate (count - digits.length) '0' ++ ['.'] ++
      (if fraction.isEmpty then ['0'] else fraction)

/-- Digits with a point after the first, when others follow. -/
def pointed : List Char → List Char
  | [] => []
  | [digit] => [digit]
  | digit :: rest => digit :: '.' :: rest

/-- The text of a decimal. -/
def Layout.write (layout : Layout) (number : Scaled) : String :=
  let (digits, power) := significant number
  if layout.least ≤ power && power < layout.bound then
    String.ofList (positional digits (power + 1))
  else String.ofList (pointed digits) ++ exponentText power

/-- The text of a finite floating-point number: its sign, and the shortest decimal of its
magnitude. -/
def Layout.writeFloat (layout : Layout) (value : Float) : String :=
  let bits := value.toBits
  let sign := if bits.toNat < 0x8000000000000000 then "" else "-"
  match Binary.ofBits? bits with
  | some magnitude => sign ++ layout.write magnitude.shortest
  | none => sign ++ "0.0"

end ActionString.Decimal
