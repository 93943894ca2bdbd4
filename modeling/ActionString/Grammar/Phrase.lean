import ActionString.Grammar.Argument

/-!
# Commands

The rules for commands. Most are a command word with arguments; five have a shape of their own. Any
text up to a separator is a command without meaning, so a command is read from every text.
-/

namespace ActionString.Grammar

open Rule Word

/-- A command word with any number of arguments. -/
def withArguments (kind : CommandKind) (argument : Rule Argument) : Rule Phrase := do
  let _ ← keyword kind.word
  let arguments ← spacedMany argument
  return .arguments kind arguments

/-- The word `examine`. -/
def examine : Rule Phrase := do
  let _ ← keyword "examine"
  return .examine

/-- An argument of `animate` after the texture: an option or a number. -/
def animateTail : Rule (Argument ⊕ String) :=
  firstOf [Sum.inl <$> Argument.animate, Sum.inr <$> make id integer]

/-- The word `animate`, an object, a texture and numbers, with options before, between and after
them. -/
def animate : Rule Phrase := do
  let _ ← keyword "animate"
  let before ← spacedMany Argument.animate
  let object ← spaced objectName
  let between ← spacedMany Argument.animate
  let texture ← spaced fileName
  let tail ← spacedMany animateTail
  return .animate {
    options := before ++ between ++ tail.filterMap Sum.getLeft?
    object := String.ofList object
    texture := String.ofList texture
    numbers := tail.filterMap Sum.getRight? }

/-- The name of a world. It begins neither with a digit nor with a signed number, so that a
position is not taken for it. -/
def worldName : Rule (List Char) := do
  notAhead (oneOf .digit)
  notAhead forceSignedNumber
  chars .worldName

/-- Two distances with the letters of their hemispheres. -/
def absolutePlace : Rule Place := do
  let north ← number
  let northLetter ← oneOf .northOrSouth
  spaces
  let east ← number
  let eastLetter ← oneOf .eastOrWest
  return .absolute (String.ofList north) northLetter (String.ofList east) eastLetter

/-- Two signed distances. -/
def relativePlace : Rule Place := do
  let x ← forceSignedNumber
  spaces
  let y ← forceSignedNumber
  return .relative (String.ofList x) (String.ofList y)

/-- A number with the letter `a` after it; the text does not include the letter. -/
def altitude : Rule String := do
  let value ← signedNumber
  let _ ← keyword "a"
  return String.ofList value

/-- A position, perhaps with an altitude and a direction. -/
def location : Rule Location := do
  let place ← firstOf [absolutePlace, relativePlace]
  let altitude ← spacedOptional altitude
  let direction ← spacedOptional (make id integer)
  return ⟨place, altitude, direction⟩

/-- The word `teleport`, perhaps with a world and a location. -/
def teleport : Rule Phrase := do
  let _ ← keyword "teleport"
  let world ← spacedOptional (make id worldName)
  let location ← spacedOptional location
  return .teleport world location

/-- The word `warp` with a location. -/
def warp : Rule Phrase := do
  let _ ← keyword "warp"
  let location ← spaced location
  return .warp location

/-- Any text up to a separator. -/
def unrecognized : Rule Phrase := do
  let text ← run fun c => c ≠ ';' && c ≠ ','
  return .unrecognized (String.ofList text)

/-- The rule for the commands of a kind. -/
def phraseOf : CommandKind → Rule Phrase
  | .texture => withArguments .texture Argument.texture
  | .animate => animate
  | .sound => withArguments .sound Argument.sound
  | .corona => withArguments .corona Argument.corona
  | .color => withArguments .color Argument.color
  | .examine => examine
  | .solid => withArguments .solid Argument.switch
  | .name => withArguments .name Argument.target
  | .visible => withArguments .visible Argument.switch
  | .move => withArguments .move Argument.move
  | .rotate => withArguments .rotate Argument.rotate
  | .scale => withArguments .scale Argument.scale
  | .light => withArguments .light Argument.light
  | .noise => withArguments .noise Argument.noise
  | .opacity => withArguments .opacity Argument.opacity
  | .ambient => withArguments .ambient Argument.intensity
  | .diffuse => withArguments .diffuse Argument.intensity
  | .specular => withArguments .specular Argument.intensity
  | .picture => withArguments .picture Argument.picture
  | .media => withArguments .media Argument.media
  | .say => withArguments .say Argument.say
  | .seq => withArguments .seq Argument.seq
  | .sign => withArguments .sign Argument.sign
  | .teleport => teleport
  | .warp => warp
  | .url => withArguments .url Argument.url
  | .invalid => unrecognized

/-- A command: of the first recognised kind whose rule applies, or else unrecognised. -/
def phrase : Rule Phrase :=
  firstOf ((CommandKind.recognized ++ [CommandKind.invalid]).map phraseOf)

end ActionString.Grammar
