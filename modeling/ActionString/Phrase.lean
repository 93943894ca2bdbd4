import ActionString.Command.Kind
import ActionString.Trigger

/-!
# Phrases

The words of an action string as they were read, before they are given a meaning. A clause is a
trigger with its phrases, and a phrase is a command word with its arguments. Texts are kept as they
were written.
-/

namespace ActionString

/-- A switch that an argument turns on by its word, and that most turn off by a second word. -/
inductive Flag where
  | mask
  | loops
  | sync
  | reset
  | overlap
  deriving DecidableEq, Repr

namespace Flag

/-- The word that turns a flag on. -/
def word : Flag → String
  | mask => "mask"
  | loops => "loop"
  | sync => "sync"
  | reset => "reset"
  | overlap => "overlap"

/-- The word that turns a flag off. -/
def offWord? : Flag → Option String
  | mask => some "nomask"
  | loops => some "noloop"
  | sync => some "nosync"
  | reset => some "noreset"
  | overlap => none

/-- The field that holds a flag. -/
def field : Flag → String
  | mask => "maskStatus"
  | flag => flag.word

end Flag

/-- What the numbers for the three axes are. -/
inductive AxesUse where
  | distance
  | speed
  | factor
  deriving DecidableEq, Repr

/-- What a number between zero and one is. -/
inductive LevelUse where
  | opacity
  | intensity
  deriving DecidableEq, Repr

/-- The text after the equals sign of a parameter, and how it is meant. -/
inductive ParameterValue where
  | integer (digits : String)
  | float (number : String)
  | color (token : String)
  /-- A word whose case does not matter. -/
  | word (spelt : String)
  /-- A text that is kept as it is. -/
  | raw (text : String)
  deriving DecidableEq, Repr

/-- An argument of a command. -/
inductive Argument where
  /-- The name of the object that the command applies to. -/
  | target (name : String)
  | parameter (key : String) (value : ParameterValue)
  /-- A word for yes or no. -/
  | answer (word : String)
  | status (flag : Flag) (word : String)
  | resource (path : String)
  | color (token : String)
  /-- Numbers for the axes. -/
  | axes (use : AxesUse) (numbers : List String)
  /-- A number to be brought between zero and one. -/
  | level (use : LevelUse) (number : String)
  | text (text : String)
  | sequence (name : String)
  deriving DecidableEq, Repr

/-- A position as it is written. -/
inductive Place where
  /-- Two distances with the letters of their hemispheres. -/
  | absolute (north : String) (northLetter : Char) (east : String) (eastLetter : Char)
  /-- Two signed distances. -/
  | relative (x y : String)
  deriving DecidableEq, Repr

/-- A destination: a position, perhaps with an altitude and a direction. -/
structure Location where
  place : Place
  altitude : Option String
  direction : Option String
  deriving DecidableEq, Repr

/-- The arguments of an animation. The numbers are the count of images, the count of frames, the
delay between frames, and the frames. -/
structure Animation where
  options : List Argument
  object : String
  texture : String
  numbers : List String
  deriving DecidableEq, Repr

/-- A command as it is written. -/
inductive Phrase where
  | arguments (kind : CommandKind) (arguments : List Argument)
  | examine
  | animate (animation : Animation)
  | teleport (world : Option String) (location : Option Location)
  | warp (location : Location)
  /-- Text that begins with no command word. -/
  | unrecognized (text : String)
  deriving DecidableEq, Repr

/-- A trigger with the phrases that it fires. -/
structure Clause where
  trigger : Trigger
  phrases : List Phrase
  deriving DecidableEq, Repr

end ActionString
