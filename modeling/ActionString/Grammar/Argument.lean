import ActionString.Grammar.Word
import ActionString.Phrase

/-!
# Arguments

The rules for the arguments of each kind of command. Where the beginnings of two arguments agree,
the order of the alternatives decides between them.
-/

namespace ActionString.Grammar

open Rule Word

namespace Argument

/-- A key, an equals sign and a value, with nothing between them. -/
def parameter (key value : Rule (List Char)) (meant : String → ParameterValue) :
    Rule Argument := do
  let key ← key
  let _ ← literal "="
  let value ← value
  return .parameter (String.ofList key) (meant (String.ofList value))

/-- A parameter with an integer. -/
def integerParameter (key : Rule (List Char)) : Rule Argument :=
  parameter key integer .integer

/-- A parameter with a number. -/
def numberParameter (key : Rule (List Char)) : Rule Argument :=
  parameter key number .float

/-- A parameter with a colour. -/
def colorParameter (key : Rule (List Char)) : Rule Argument :=
  parameter key colorCode .color

/-- The target as a parameter. -/
def name : Rule Argument := do
  let _ ← literal "name"
  let _ ← literal "="
  make .target objectName

/-- The tag of a surface. -/
def tag : Rule Argument := integerParameter (literal "tag")

/-- The path of a mask. -/
def mask : Rule Argument := parameter (keyword "mask") resourcePath .raw

/-- A time in seconds. -/
def time : Rule Argument := numberParameter (literal "time")

/-- A pause in seconds. -/
def wait : Rule Argument := numberParameter (literal "wait")

/-- The reach of a light or a medium. -/
def radius : Rule Argument := numberParameter (keyword "radius")

/-- A flag by its word or by the word that turns it off. -/
def status (flag : Flag) : Rule Argument :=
  make (.status flag) <|
    match flag.offWord? with
    | some off => firstOf [literal flag.word, literal off]
    | none => literal flag.word

/-- A resource path that stands alone. -/
def resource : Rule Argument := make .resource resourcePath

/-- A target that stands alone. -/
def target : Rule Argument := make .target objectName

/-- Numbers for the axes, with spaces between them. -/
def axes (use : AxesUse) : Rule Argument := do
  let first ← signedNumber
  let others ← spacedMany signedNumber
  return .axes use ((first :: others).map String.ofList)

/-- A number to be brought between zero and one. -/
def level (use : LevelUse) : Rule Argument := make (.level use) signedNumber

/-- The type of a light. -/
def lightType : Rule (List Char) := firstOf [keyword "point", keyword "spot"]

/-- The effect of a light. -/
def lightEffect : Rule (List Char) :=
  firstOf [keyword "blink", keyword "fadein", keyword "fadeout", keyword "fire",
    keyword "flicker", keyword "flash", keyword "pulse"]

/-- The arguments of `texture`. -/
def texture : Rule Argument := firstOf [mask, tag, name, resource]

/-- The arguments of `sound`. -/
def sound : Rule Argument := firstOf [name, status .loops, resource]

/-- The arguments of `corona`. -/
def corona : Rule Argument := firstOf [mask, numberParameter (literal "size"), name, resource]

/-- The arguments of `color`. -/
def color : Rule Argument := firstOf [name, make .color colorCode]

/-- The arguments of `solid` and `visible`. -/
def switch : Rule Argument := firstOf [make .answer answer, target]

/-- The arguments of `move`. -/
def move : Rule Argument :=
  firstOf [axes .distance, status .loops, status .sync, status .reset, name, time, wait]

/-- The arguments of `rotate`. -/
def rotate : Rule Argument :=
  firstOf [axes .speed, status .sync, time, status .loops, status .reset, wait, name]

/-- The arguments of `scale`. -/
def scale : Rule Argument :=
  firstOf [axes .factor, status .sync, time, status .loops, status .reset, wait, name]

/-- The arguments of `light`. -/
def light : Rule Argument :=
  firstOf [parameter (keyword "type") lightType .word, colorParameter (keyword "color"),
    numberParameter (keyword "brightness"), radius, name,
    parameter (keyword "fx") lightEffect .word, time, numberParameter (literal "angle"),
    numberParameter (literal "pitch")]

/-- The arguments of `noise`. -/
def noise : Rule Argument := firstOf [status .overlap, resource]

/-- The arguments of `opacity`. -/
def opacity : Rule Argument := firstOf [level .opacity, tag, name]

/-- The arguments of `ambient`, `diffuse` and `specular`. -/
def intensity : Rule Argument := firstOf [level .intensity, tag, name]

/-- The arguments of `picture`. -/
def picture : Rule Argument := firstOf [integerParameter (literal "update"), name, resource]

/-- The arguments of `media`. -/
def media : Rule Argument := firstOf [name, radius, resource]

/-- The arguments of `say`. -/
def say : Rule Argument := make .text text

/-- The arguments of `seq`. The words of the flag count only when they are whole. -/
def seq : Rule Argument := firstOf [name, whole (status .loops), make .sequence fileName]

/-- The arguments of `sign`. -/
def sign : Rule Argument :=
  firstOf [colorParameter (keyword "color"), colorParameter (keyword "bcolor"), name,
    make .text text]

/-- The arguments of `url`. -/
def url : Rule Argument :=
  firstOf [parameter (keyword "target") (keyword "aw_3d") .word, resource]

/-- The options of `animate`. The words of the flag count only when they are whole. -/
def animate : Rule Argument := firstOf [tag, whole (status .mask)]

end Argument

end ActionString.Grammar
