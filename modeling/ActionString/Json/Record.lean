import ActionString.ActionMap
import ActionString.Json.Basic

/-!
# Records

The JSON forms of field values, commands and action maps. A command is one flat object: its kind
first, then its fields in their order.
-/

namespace ActionString

/-- A colour as an object of its channels. -/
def Color.toJson (color : Color) : Json :=
  .object [("r", .integer color.red.toNat), ("g", .integer color.green.toNat),
    ("b", .integer color.blue.toNat)]

/-- A vector as an object of its axes. -/
def Axes.toJson (axes : Axes) : Json :=
  .object [("x", .float axes.x), ("y", .float axes.y), ("z", .float axes.z)]

/-- A position as an object that names its form first. -/
def Position.toJson : Position → Json
  | absolute north east =>
    .object [("coordinateType", .string "absolute"), ("NS", .float north), ("EW", .float east)]
  | relative x y =>
    .object [("coordinateType", .string "relative"), ("x", .float x), ("y", .float y)]

/-- An altitude as an object that names its base first. -/
def Altitude.toJson (altitude : Altitude) : Json :=
  .object [("altitudeType", .string altitude.base.name), ("value", .float altitude.value)]

/-- A field value. -/
def Value.toJson : Value → Json
  | bool value => .bool value
  | integer value => .integer value.toNat
  | float value => .float value
  | text value => .string value
  | color value => value.toJson
  | vector value => value.toJson
  | position value => value.toJson
  | altitude value => value.toJson
  | integers values => .array (values.map fun value => .integer value.toNat)

/-- A command: its kind, then its fields. -/
def Command.toJson (command : Command) : Json :=
  .object (("commandType", .string command.kind.word) ::
    command.fields.entries.map fun (name, value) => (name, value.toJson))

/-- An action map: each trigger with the list of its commands. -/
def ActionMap.toJson (map : ActionMap) : Json :=
  .object (map.entries.map fun (trigger, commands) =>
    (trigger.word, .array (commands.map Command.toJson)))

end ActionString
