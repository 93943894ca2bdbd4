import ActionString.Color.Token
import ActionString.Command.Basic
import ActionString.Decimal.Read
import ActionString.Phrase

/-!
# The meaning of arguments

Each argument stands for a field and its value. Names and words are lower-cased, texts and paths are
kept, and numbers are read and brought into their range.
-/

namespace ActionString

namespace Meaning

/-- The value of a word for yes or no. -/
def answer? (word : String) : Option Bool :=
  if ["on", "true", "yes"].contains word then some true
  else if ["off", "false", "no"].contains word then some false
  else none

/-- The least factor on an axis. -/
def leastFactor : Float := 0.1

/-- Distances or speeds for three axes. One number is for the vertical axis, and more than three
are refused as a whole. -/
def completeVector : List Float → Axes
  | [y] => ⟨0, y, 0⟩
  | [x, y] => ⟨x, y, 0⟩
  | [x, y, z] => ⟨x, y, z⟩
  | _ => Axes.zero

/-- A factor brought up to the least one. -/
def raiseFactor (factor : Float) : Float :=
  if factor < leastFactor then leastFactor else factor

/-- Factors for three axes. One number is for every axis, and more than three are cut off. -/
def completeFactors (factors : List Float) : Axes :=
  match factors.map raiseFactor with
  | [] => Axes.splat 1
  | [factor] => Axes.splat factor
  | [x, y] => ⟨x, y, 1⟩
  | x :: y :: z :: _ => ⟨x, y, z⟩

/-- A number brought between zero and one. -/
def clampLevel (value : Float) : Float :=
  if value < 0 then 0 else if 1 < value then 1 else value

end Meaning

namespace ParameterValue

/-- The value that a parameter stands for. -/
def value : ParameterValue → Value
  | integer digits => .integer (Decimal.integerOf digits)
  | float number => .float (Decimal.floatOf number)
  | color token => .color (Color.ofToken token)
  | word spelt => .text (Text.lowercase spelt)
  | raw words => .text words

end ParameterValue

namespace AxesUse

/-- The field of numbers for the axes. -/
def field : AxesUse → String
  | distance => "distance"
  | speed => "speed"
  | factor => "factor"

/-- Numbers as they count for three axes. -/
def complete : AxesUse → List Float → Axes
  | factor, numbers => Meaning.completeFactors numbers
  | _, numbers => Meaning.completeVector numbers

end AxesUse

namespace LevelUse

/-- The field of a number between zero and one. -/
def field : LevelUse → String
  | opacity => "value"
  | intensity => "intensity"

end LevelUse

namespace Argument

/-- The field of a resource path, until it is renamed after its command. -/
def resourceField : String := "resource"

/-- The field that an argument stands for and its value. A word that means neither yes nor no
stands for nothing. -/
def field? : Argument → Option (String × Value)
  | target name => some (Command.targetField, .text (Text.lowercase name))
  | parameter key value => some (Text.lowercase key, value.value)
  | answer word => (Meaning.answer? word).map fun value => ("value", .bool value)
  | status flag word => some (flag.field, .bool (word == flag.word))
  | resource path => some (resourceField, .text path)
  | color token => some ("color", .color (Color.ofToken token))
  | axes use numbers =>
    some (use.field, .vector (use.complete (numbers.map Decimal.floatOf)))
  | level use number =>
    some (use.field, .float (Meaning.clampLevel (Decimal.floatOf number)))
  | text words => some ("text", .text words)
  | sequence name => some ("seq", .text name)

end Argument

end ActionString
