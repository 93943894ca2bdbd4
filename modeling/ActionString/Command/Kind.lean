import ActionString.Error
import ActionString.Text.Folding

/-!
# Kinds of commands

A command is recognised by the word it begins with. Text that begins with none of these words is a
command of the kind `invalid`.
-/

namespace ActionString

/-- What a command does, named by its leading word. -/
inductive CommandKind where
  | texture
  | animate
  | sound
  | corona
  | color
  | examine
  | solid
  | name
  | visible
  | move
  | rotate
  | scale
  | light
  | noise
  | opacity
  | ambient
  | diffuse
  | specular
  | picture
  | media
  | say
  | seq
  | sign
  | teleport
  | warp
  | url
  /-- Text that begins with no command word. -/
  | invalid
  deriving DecidableEq, Repr, Inhabited

namespace CommandKind

/-- The kinds with a word of their own, in the order in which the grammar tries them. -/
def recognized : List CommandKind :=
  [texture, animate, sound, corona, color, examine, solid, name, visible, move, rotate, scale,
   light, noise, opacity, ambient, diffuse, specular, picture, media, say, seq, sign, teleport,
   warp, url]

/-- The word of a kind. -/
def word : CommandKind → String
  | texture => "texture"
  | animate => "animate"
  | sound => "sound"
  | corona => "corona"
  | color => "color"
  | examine => "examine"
  | solid => "solid"
  | name => "name"
  | visible => "visible"
  | move => "move"
  | rotate => "rotate"
  | scale => "scale"
  | light => "light"
  | noise => "noise"
  | opacity => "opacity"
  | ambient => "ambient"
  | diffuse => "diffuse"
  | specular => "specular"
  | picture => "picture"
  | media => "media"
  | say => "say"
  | seq => "seq"
  | sign => "sign"
  | teleport => "teleport"
  | warp => "warp"
  | url => "url"
  | invalid => "invalid"

/-- Whether a command of this kind means something without any field. -/
def allowsEmpty : CommandKind → Bool
  | examine | sign => true
  | _ => false

/-- The recognised kind with a given word, in any ASCII case. -/
def ofWord? (word : String) : Option CommandKind :=
  recognized.find? fun kind => Text.sameFolded kind.word word

/-- Reads the word of a recognised kind. -/
def ofWord (word : String) : Except Error CommandKind :=
  match ofWord? word with
  | some kind => .ok kind
  | none => .error (.unknownCommand word)

/-- The recognised kinds are all but `invalid`. -/
theorem mem_recognized_iff (kind : CommandKind) : kind ∈ recognized ↔ kind ≠ invalid := by
  cases kind <;> decide

end CommandKind

end ActionString
