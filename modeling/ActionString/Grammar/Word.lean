import ActionString.Grammar.Rule

/-!
# Words

The rules for single words: names, numbers, answers and texts. They read contiguous text.
-/

namespace ActionString.Grammar.Word

open Rule

/-- Reads a word and makes a value of its text. -/
def make {α : Type} (use : String → α) (rule : Rule (List Char)) : Rule α := do
  let word ← rule
  return use (String.ofList word)

/-- The name of an object. -/
def objectName : Rule (List Char) := chars .objectName

/-- The path of a resource. -/
def resourcePath : Rule (List Char) := chars .resourcePath

/-- The name of a file. -/
def fileName : Rule (List Char) := chars .fileName

/-- A colour token. -/
def colorCode : Rule (List Char) := chars .colorCode

/-- An integer. -/
def integer : Rule (List Char) := chars .digit

/-- A plus or minus sign. -/
def sign : Rule Char := oneOf .sign

/-- Digits after a point, perhaps with digits before it. -/
def pointed : Rule (List Char) := do
  let whole ← run CharClass.digit.accepts
  let point ← literal "."
  let fraction ← integer
  return whole ++ point ++ fraction

/-- A number without a sign. -/
def number : Rule (List Char) := firstOf [pointed, integer]

/-- A number that may have a sign. -/
def signedNumber : Rule (List Char) := do
  let mark ← optional sign
  let digits ← number
  return mark.toList ++ digits

/-- A number that must have a sign. -/
def forceSignedNumber : Rule (List Char) := do
  let mark ← sign
  let digits ← number
  return mark :: digits

/-- A word for yes or no. -/
def answer : Rule (List Char) :=
  firstOf [literal "on", literal "true", literal "yes", literal "off", literal "false",
    literal "no"]

/-- Text between quotes, of which the closing one may be missing. -/
def quotedText : Rule (List Char) := do
  let _ ← literal "\x22"
  let text ← run fun c => c ≠ '\x22'
  let _ ← optional (literal "\x22")
  return text

/-- Quoted text, or text up to a space or a separator. -/
def text : Rule (List Char) := firstOf [quotedText, chars .plainText]

/-- A word that is not followed by a character of a file name. -/
def whole {α : Type} (rule : Rule α) : Rule α := do
  let value ← rule
  notAhead (oneOf .fileName)
  return value

end ActionString.Grammar.Word
