import ActionString.Text.Alphabetic

/-!
# What the grammar looks for

A rule looks for a fixed text, for characters of a class, or for the end of the text. What was
looked for and not found is listed in a fixed order: texts, then classes, then the end.
-/

namespace ActionString

/-- The classes of characters that words are made of. -/
inductive CharClass where
  | objectName
  | resourcePath
  | fileName
  | colorCode
  | digit
  | sign
  | plainText
  | northOrSouth
  | eastOrWest
  | worldName
  deriving DecidableEq, Repr

namespace CharClass

/-- The description of a class in messages. -/
def description : CharClass → String
  | objectName => "an object name"
  | resourcePath => "a resource path"
  | fileName => "a file name"
  | colorCode => "a color"
  | digit => "a digit"
  | sign => "a sign"
  | plainText => "text"
  | northOrSouth => "N or S"
  | eastOrWest => "E or W"
  | worldName => "a world name"

/-- The characters of a resource path besides the alphanumeric ones. -/
def pathMarks : List Char :=
  ['.', '/', ':', '_', '-', '+', '%', '?', '=', '[', ']', '&', '~', '!', '@', '*', '(', ')']

/-- Whether a character belongs to a class. -/
def accepts : CharClass → Char → Bool
  | objectName, c => Text.isAlphanumeric c || c = '_' || c = '-'
  | resourcePath, c => Text.isAlphanumeric c || pathMarks.contains c
  | fileName, c => Text.isAlphanumeric c || c = '.' || c = '_' || c = '-'
  | colorCode, c => Text.isAlphanumeric c
  | digit, c => c.isDigit
  | sign, c => c = '+' || c = '-'
  | plainText, c => c ≠ ';' && c ≠ ',' && c ≠ ' '
  | northOrSouth, c => c = 'n' || c = 'N' || c = 's' || c = 'S'
  | eastOrWest, c => c = 'e' || c = 'E' || c = 'w' || c = 'W'
  | worldName, c => c ≠ ';' && c ≠ ',' && c ≠ ' ' && c ≠ '\x22'

end CharClass

/-- Something that a rule looks for. -/
inductive Expected where
  /-- A fixed text. -/
  | literal (text : String)
  /-- Characters of a described class. -/
  | charClass (description : String)
  /-- The end of the text. -/
  | endOfInput
  deriving DecidableEq, Repr

namespace Expected

/-- Where an item stands in a list: texts come first, the end last. -/
def rank : Expected → Nat
  | literal _ => 0
  | charClass _ => 1
  | endOfInput => 2

/-- The text or the description of an item. -/
def words : Expected → String
  | literal text => text
  | charClass description => description
  | endOfInput => ""

/-- Whether an item is listed before another: by rank, and within a rank by code points. -/
def precedes (first second : Expected) : Bool :=
  first.rank < second.rank || (first.rank = second.rank && first.words < second.words)

/-- Adds an item to an ordered list, unless it is there. -/
def addTo (item : Expected) : List Expected → List Expected
  | [] => [item]
  | first :: rest =>
    if item = first then first :: rest
    else if item.precedes first then item :: first :: rest
    else first :: addTo item rest

/-- The items of a list in their order, each of them once. -/
def ordered (items : List Expected) : List Expected :=
  items.foldr addTo []

/-- An item as it is shown. -/
def shown : Expected → String
  | literal text => "\x22" ++ text ++ "\x22"
  | charClass description => description
  | endOfInput => "end of input"

/-- Adding an item adds it and nothing else. -/
theorem mem_addTo {item other : Expected} {items : List Expected} :
    other ∈ addTo item items ↔ other = item ∨ other ∈ items := by
  induction items with
  | nil => simp [addTo]
  | cons first rest ih =>
    by_cases same : item = first
    · subst same
      simp [addTo]
    · by_cases before : item.precedes first = true
      · simp [addTo, same, before]
      · rw [addTo, if_neg same, if_neg before, List.mem_cons, List.mem_cons, ih]
        exact or_left_comm

/-- Ordering a list keeps its members. -/
theorem mem_ordered {item : Expected} {items : List Expected} :
    item ∈ ordered items ↔ item ∈ items := by
  induction items with
  | nil => simp [ordered]
  | cons first rest ih =>
    rw [ordered, List.foldr_cons, mem_addTo, List.mem_cons]
    exact or_congr Iff.rfl ih

end Expected

end ActionString
