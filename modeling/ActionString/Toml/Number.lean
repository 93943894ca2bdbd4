import ActionString.Decimal.Read
import ActionString.Toml.Node
import ActionString.Toml.Text

/-!
# TOML numbers and times

Numbers and times are recognised by their form. Underscores may stand between digits, and the parts
of a time must lie in their ranges.
-/

namespace ActionString.Toml

/-- Whether a text is made of digits, with single underscores between some of them. -/
def isDigits (accepts : Char → Bool) : List Char → Bool
  | [] => false
  | [c] => accepts c
  | c :: '_' :: rest => accepts c && isDigits accepts rest
  | c :: rest => accepts c && isDigits accepts rest

/-- A text without its underscores. -/
def plainDigits (text : List Char) : List Char := text.filter (· ≠ '_')

/-- Whether digits begin with no needless zero. -/
def isMinimal (digits : List Char) : Bool :=
  match digits with
  | '0' :: _ :: _ => false
  | _ => true

/-- A text without a sign at its front, and whether that sign is a minus. -/
def splitSign : List Char → Bool × List Char
  | '-' :: rest => (true, rest)
  | '+' :: rest => (false, rest)
  | text => (false, text)

/-- The number that digits of a base stand for. -/
def baseNumber? (base : Nat) (text : List Char) : Option Nat :=
  let isDigit : Char → Bool := fun c =>
    match Color.hexDigit? c with
    | some digit => digit < base
    | none => false
  if isDigits isDigit text then
    (plainDigits text).foldlM (fun value c => (Color.hexDigit? c).map (base * value + ·)) 0
  else none

/-- Whether an integer can be held in 128 bits, signed or not. -/
def isHeld (value : Int) : Bool :=
  -0x80000000000000000000000000000000 ≤ value && value < 0x100000000000000000000000000000000

/-- The integer that a text stands for. -/
def integer? (text : List Char) : Option Int :=
  let value := match text with
    | '0' :: 'x' :: rest => (baseNumber? 16 rest).map Int.ofNat
    | '0' :: 'o' :: rest => (baseNumber? 8 rest).map Int.ofNat
    | '0' :: 'b' :: rest => (baseNumber? 2 rest).map Int.ofNat
    | _ =>
      let (negative, digits) := splitSign text
      if isDigits Char.isDigit digits && isMinimal digits then
        let value := Decimal.naturalOf (plainDigits digits)
        some (if negative then -(value : Int) else value)
      else none
  value.filter isHeld

/-- Whether `digits · 10^exponent` is within the range of floating-point numbers. -/
def isInRange (digits : List Char) (exponent : Int) : Bool :=
  let significant := digits.dropWhile (· = '0')
  let magnitude := significant.length + exponent
  if significant.isEmpty || magnitude < 309 then true
  else if 309 < magnitude then false
  else (Float.ofScientific (Decimal.naturalOf significant) (exponent < 0) exponent.natAbs).isFinite

/-- The parts of a number: before the point, after it, and the power of ten. -/
structure FloatParts where
  whole : List Char
  fraction : Option (List Char)
  power : Option (List Char)

/-- Splits a number without a sign at its point and at the letter of its power. -/
def FloatParts.of (text : List Char) : FloatParts :=
  let mantissa := text.takeWhile fun c => c ≠ 'e' && c ≠ 'E'
  let power := text.drop mantissa.length
  let whole := mantissa.takeWhile (· ≠ '.')
  let fraction := mantissa.drop whole.length
  ⟨whole, if fraction.isEmpty then none else some (fraction.drop 1),
    if power.isEmpty then none else some (power.drop 1)⟩

/-- Whether the parts make up a number that is not an integer and is within range. -/
def FloatParts.isValid (parts : FloatParts) : Bool :=
  let (negative, power) := splitSign (parts.power.getD ['0'])
  let fraction := parts.fraction.getD []
  let digits := plainDigits parts.whole ++ plainDigits fraction
  let shift : Int := Decimal.naturalOf (plainDigits power)
  (parts.fraction.isSome || parts.power.isSome) &&
    isDigits Char.isDigit parts.whole && isMinimal parts.whole &&
    (parts.fraction.isNone || isDigits Char.isDigit fraction) &&
    isDigits Char.isDigit power &&
    isInRange digits ((if negative then -shift else shift) - (plainDigits fraction).length)

/-- Whether a text is a number that is not an integer. -/
def isFloat (text : List Char) : Bool :=
  let (_, rest) := splitSign text
  rest = ['i', 'n', 'f'] || rest = ['n', 'a', 'n'] || (FloatParts.of rest).isValid

/-- The two digits at the front of a text. -/
def twoDigits? : List Char → Option (Nat × List Char)
  | a :: b :: rest =>
    if a.isDigit && b.isDigit then some (Decimal.naturalOf [a, b], rest) else none
  | _ => none

/-- The number of days of a month. -/
def daysOf (year month : Nat) : Nat :=
  if month = 2 then
    if year % 4 = 0 && (year % 100 ≠ 0 || year % 400 = 0) then 29 else 28
  else if [4, 6, 9, 11].contains month then 30
  else 31

/-- The text after the date at the front of a text. -/
def afterDate? (text : List Char) : Option (List Char) := do
  let (century, rest) ← twoDigits? text
  let (years, rest) ← twoDigits? rest
  let '-' :: rest := rest | none
  let (month, rest) ← twoDigits? rest
  let '-' :: rest := rest | none
  let (day, rest) ← twoDigits? rest
  if 1 ≤ month && month ≤ 12 && 1 ≤ day && day ≤ daysOf (100 * century + years) month then
    some rest
  else none

/-- The text after hours and minutes within their ranges. -/
def afterMinutes? (text : List Char) : Option (List Char) := do
  let (hours, rest) ← twoDigits? text
  let ':' :: rest := rest | none
  let (minutes, rest) ← twoDigits? rest
  if hours < 24 && minutes < 60 then some rest else none

/-- The text after the time of a day at the front of a text. Seconds may be missing. -/
def afterTime? (text : List Char) : Option (List Char) := do
  let rest ← afterMinutes? text
  match rest with
  | ':' :: rest =>
    let (seconds, rest) ← twoDigits? rest
    if 60 < seconds then none
    else
      match rest with
      | '.' :: c :: rest => if c.isDigit then some (rest.dropWhile Char.isDigit) else none
      | rest => some rest
  | rest => some rest

/-- Whether a text is the offset of a time, or nothing. -/
def isOffset : List Char → Bool
  | [] => true
  | ['z'] => true
  | ['Z'] => true
  | '+' :: rest => afterMinutes? rest = some []
  | '-' :: rest => afterMinutes? rest = some []
  | _ => false

/-- Whether a text is a date, a time, or both. -/
def isTime (text : List Char) : Bool :=
  match afterDate? text with
  | some [] => true
  | some (c :: rest) =>
    (c = 'T' || c = 't' || c = ' ') && ((afterTime? rest).map isOffset).getD false
  | none => afterTime? text = some []

/-- The value that a bare text stands for. -/
def bareScalar? (text : List Char) : Option Scalar :=
  if text = ['t', 'r', 'u', 'e'] then some (.boolean true)
  else if text = ['f', 'a', 'l', 's', 'e'] then some (.boolean false)
  else
    match integer? text with
    | some value => some (.integer value)
    | none =>
      if isFloat text then some (.float (String.ofList text))
      else if isTime text then some (.time (String.ofList text))
      else none

/-- Whether a character may stand in a bare text. -/
def isBare (c : Char) : Bool :=
  c.isAlphanum || ['+', '-', '_', '.', ':'].contains c

/-- The bare text at the front of a text. A date may be followed by a blank and a time. -/
def splitBare (text : List Char) : List Char × List Char :=
  let bare := text.takeWhile isBare
  let rest := text.dropWhile isBare
  match rest with
  | ' ' :: c :: more =>
    if c.isDigit && afterDate? bare = some [] then
      (bare ++ ' ' :: (c :: more).takeWhile isBare, (c :: more).dropWhile isBare)
    else (bare, rest)
  | _ => (bare, rest)

end ActionString.Toml
