import ActionString.Expected
import ActionString.Span
import ActionString.Text.Escape
import ActionString.Text.Offset

/-!
# Diagnostics

A diagnostic says where a text could not be understood, what stands there, and what was looked for
instead. It is shown on one line, or as a report that points at the place under its line.
-/

namespace ActionString

/-- What is wrong at the place of a diagnostic. -/
inductive Complaint where
  /-- A character that fits nothing that was looked for. -/
  | unexpected (c : Char)
  /-- The end of a text that should go on. -/
  | unexpectedEnd
  deriving DecidableEq, Repr

namespace Complaint

/-- The code of a complaint about a character. -/
def unexpectedCode : String := "E100"

/-- The code of a complaint about the end. -/
def endCode : String := "E101"

/-- The code of a complaint. -/
def code : Complaint → String
  | unexpected _ => unexpectedCode
  | unexpectedEnd => endCode

/-- The description of a complaint about any character. -/
def unexpectedDescription : String := "unexpected input"

/-- The description of a complaint about the end. -/
def endDescription : String := "unexpected end of input"

/-- The description of a complaint, whatever the character. -/
def description : Complaint → String
  | unexpected _ => unexpectedDescription
  | unexpectedEnd => endDescription

/-- The message of a complaint. -/
def message : Complaint → String
  | unexpected c => "unexpected character `" ++ Text.escapeChar c ++ "`"
  | unexpectedEnd => endDescription

/-- The codes with their descriptions. -/
def table : List (String × String) :=
  [(unexpectedCode, unexpectedDescription), (endCode, endDescription)]

end Complaint

/-- A failure located in its text. Lines and columns are counted from one, columns in characters. -/
structure Diagnostic where
  complaint : Complaint
  span : Span
  line : Nat
  column : Nat
  lineText : String
  expected : List Expected
  deriving DecidableEq, Repr

namespace Diagnostic

/-- The end of a text after its last newline. -/
def lastLine (text : List Char) : List Char :=
  (text.reverse.takeWhile (· ≠ '\n')).reverse

/-- The beginning of a text before its first newline. -/
def firstLine (text : List Char) : List Char :=
  text.takeWhile (· ≠ '\n')

/-- The diagnostic of a failure at a byte of a text. A byte inside a character stands for the
character, and one past the end for the end. -/
def atOffset (source : List Char) (offset : Nat) (expected : List Expected) : Diagnostic :=
  let (before, after) := Text.splitAtByte offset source
  let start := Text.byteSize before
  { complaint := match after with
      | c :: _ => .unexpected c
      | [] => .unexpectedEnd
    span := match after with
      | c :: _ => Span.between start (start + c.utf8Size)
      | [] => Span.point start
    line := before.count '\n' + 1
    column := (lastLine before).length + 1
    lineText := String.ofList (lastLine before ++ firstLine after)
    expected := Expected.ordered expected }

/-- A list of items in words: `a`, `a or b`, or `a, b, or c`. -/
def alternatives : List Expected → String
  | [] => ""
  | [only] => only.shown
  | [first, second] => first.shown ++ " or " ++ second.shown
  | items => String.join (items.dropLast.map fun item => item.shown ++ ", ") ++ "or " ++
      (items.getLast?.map Expected.shown).getD ""

/-- What the place of a diagnostic is labelled with. -/
def label (diagnostic : Diagnostic) : String :=
  if diagnostic.expected.isEmpty then diagnostic.complaint.description
  else "expected " ++ alternatives diagnostic.expected

/-- A diagnostic on one line. -/
def display (diagnostic : Diagnostic) : String :=
  "error[" ++ diagnostic.complaint.code ++ "]: " ++ diagnostic.complaint.message ++ " at line " ++
    toString diagnostic.line ++ ", column " ++ toString diagnostic.column

/-- What stands before the excerpt in a report. -/
def gutter (diagnostic : Diagnostic) : String :=
  "> " ++ toString diagnostic.line ++ " | "

/-- A diagnostic as a report: the place in numbers, its line, and a caret under the place. -/
def report (diagnostic : Diagnostic) : String :=
  "Line " ++ toString diagnostic.line ++ ", col " ++ toString diagnostic.column ++ ":\n" ++
    diagnostic.gutter ++ diagnostic.lineText ++ "\n" ++
    String.ofList (List.replicate (diagnostic.gutter.length + diagnostic.column - 1) ' ') ++ "^" ++
    (if diagnostic.expected.isEmpty then ""
      else "\nExpected " ++ alternatives diagnostic.expected)

end Diagnostic

end ActionString
