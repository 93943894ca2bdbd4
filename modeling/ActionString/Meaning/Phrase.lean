import ActionString.Meaning.Argument

/-!
# The meaning of commands

A phrase stands for the command that its arguments fill in one after the other. When two arguments
stand for the same field the phrase stands for nothing.
-/

namespace ActionString

namespace Command

/-- Sets fields one after the other; the first that is there already refuses them all. -/
def setAll (command : Command) (fields : List (String × Value)) : Except Error Command :=
  fields.foldlM (fun command (field, value) => command.set field value) command

/-- The command of a kind with the fields that its arguments stand for. A resource is named after
the command. -/
def ofArguments (kind : CommandKind) (arguments : List Argument) : Except Error Command := do
  let command ← (ofKind kind).setAll (arguments.filterMap Argument.field?)
  return command.rename Argument.resourceField kind.word

/-- Sets the field of an animation that has no mask option. -/
def withMaskStatus (command : Command) : Except Error Command :=
  if command.fields.contains Flag.mask.field then return command
  else command.set Flag.mask.field (.bool false)

end Command

namespace Animation

/-- The fields of the object, the texture and the numbers. Counts that are missing are one, a delay
that is missing is zero, and a list of frames is set only when there are some. -/
def fields (animation : Animation) : List (String × Value) :=
  let numbers := animation.numbers.map Decimal.integerOf
  let frames := numbers.drop 3
  [(Command.targetField, .text (Text.lowercase animation.object)),
   ("texture", .text animation.texture),
   ("imageCount", .integer (numbers[0]?.getD 1)),
   ("frameCount", .integer (numbers[1]?.getD 1)),
   ("frameDelay", .integer (numbers[2]?.getD 0))] ++
  (if frames.isEmpty then [] else [("frameList", .integers frames)])

/-- The command of an animation: its options, then its fields. -/
def command (animation : Animation) : Except Error Command := do
  let options ← (Command.ofKind .animate).setAll (animation.options.filterMap Argument.field?)
  let masked ← options.withMaskStatus
  masked.setAll animation.fields

end Animation

namespace Place

/-- A distance with the sign of its hemisphere: south and west are negative. -/
def signed (distance : String) (letter : Char) : Float :=
  let value := Decimal.floatOf distance
  if letter.toLower = 's' || letter.toLower = 'w' then -value else value

/-- The position that a place stands for. -/
def position : Place → Position
  | absolute north northLetter east eastLetter =>
    .absolute (signed north northLetter) (signed east eastLetter)
  | relative x y => .relative (Decimal.floatOf x) (Decimal.floatOf y)

end Place

namespace Location

/-- The altitude that a number stands for: a signed one is relative. -/
def altitudeOf (number : String) : Altitude :=
  match number.toList with
  | '+' :: _ | '-' :: _ => ⟨.relative, Decimal.floatOf number⟩
  | _ => ⟨.absolute, Decimal.floatOf number⟩

/-- Fills in the fields of a destination. -/
def addTo (location : Location) (command : Command) : Command :=
  let placed := command.replace "coordinates" (.position location.place.position)
  let raised := match location.altitude with
    | some number => placed.replace "altitude" (.altitude (altitudeOf number))
    | none => placed
  match location.direction with
  | some digits => raised.replace "direction" (.integer (Decimal.integerOf digits))
  | none => raised

end Location

namespace Phrase

/-- The command that a phrase stands for, unless two of its arguments stand for the same field. -/
def resolve : Phrase → Except Error Command
  | arguments kind given => Command.ofArguments kind given
  | examine => .ok (Command.ofKind .examine)
  | animate animation => animation.command
  | teleport world location =>
    let command := Command.ofKind .teleport
    let named := match world with
      | some world => command.replace "worldName" (.text world)
      | none => command
    .ok (match location with
      | some location => location.addTo named
      | none => named)
  | warp location => .ok (location.addTo (Command.ofKind .warp))
  | unrecognized text => .ok (Command.unrecognized text)

/-- The command that a phrase stands for, if there is one. -/
def command? (phrase : Phrase) : Option Command := phrase.resolve.toOption

end Phrase

end ActionString
