import ActionString.Color.Basic
import ActionString.Text.Folding

/-!
# The palette

Thirty-two colours have names. A name is read in any ASCII case.
-/

namespace ActionString

namespace Color

/-- The named colours in the order of their names. -/
def palette : List (String × Color) :=
  [("aquamarine", ⟨112, 219, 147⟩),
   ("black", ⟨0, 0, 0⟩),
   ("blue", ⟨0, 0, 255⟩),
   ("brass", ⟨181, 166, 66⟩),
   ("bronze", ⟨140, 120, 83⟩),
   ("brown", ⟨166, 42, 42⟩),
   ("copper", ⟨184, 115, 51⟩),
   ("cyan", ⟨0, 255, 255⟩),
   ("darkgrey", ⟨48, 48, 48⟩),
   ("forestgreen", ⟨35, 142, 35⟩),
   ("gold", ⟨205, 127, 50⟩),
   ("green", ⟨0, 255, 0⟩),
   ("grey", ⟨112, 112, 112⟩),
   ("lightgrey", ⟨192, 192, 192⟩),
   ("magenta", ⟨255, 0, 255⟩),
   ("maroon", ⟨142, 35, 107⟩),
   ("navyblue", ⟨35, 35, 142⟩),
   ("orange", ⟨255, 127, 0⟩),
   ("orangered", ⟨255, 36, 0⟩),
   ("orchid", ⟨219, 112, 219⟩),
   ("pink", ⟨255, 110, 199⟩),
   ("red", ⟨255, 0, 0⟩),
   ("salmon", ⟨111, 66, 66⟩),
   ("scarlet", ⟨140, 23, 23⟩),
   ("silver", ⟨230, 232, 250⟩),
   ("skyblue", ⟨50, 153, 204⟩),
   ("tan", ⟨219, 147, 112⟩),
   ("teal", ⟨0, 112, 112⟩),
   ("turquoise", ⟨173, 234, 234⟩),
   ("violet", ⟨79, 47, 79⟩),
   ("white", ⟨255, 255, 255⟩),
   ("yellow", ⟨255, 255, 0⟩)]

/-- Searches sorted entries by halving: the middle entry decides which half to go on with. -/
def search (name : String) (entries : Array (String × Color)) (low high : Nat) : Option Color :=
  if _nonempty : low < high then
    let middle := (low + high) / 2
    match entries[middle]? with
    | none => none
    | some (key, color) =>
      if name = key then some color
      else if name < key then search name entries low middle
      else search name entries (middle + 1) high
  else none
termination_by high - low

/-- The colour with a given name, in any ASCII case. -/
def named? (name : String) : Option Color :=
  search (Text.foldCase name) palette.toArray 0 palette.length

end Color

end ActionString
