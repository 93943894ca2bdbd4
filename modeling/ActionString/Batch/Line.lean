import ActionString.Batch.Settings
import ActionString.Text.Blank
import ActionString.Text.Lines

/-!
# Numbered lines

A source holds one action string on each line. Lines are numbered from one before any is skipped.
-/

namespace ActionString

/-- A line with its number. -/
structure NumberedLine where
  number : Nat
  text : String
  deriving DecidableEq, Repr

namespace NumberedLine

/-- The lines of a source with their numbers. -/
def all (source : String) : List NumberedLine :=
  (Text.splitLines source.toList).zipIdx.map fun (line, index) =>
    ⟨index + 1, String.ofList line⟩

/-- Whether a line is skipped: as blank, or as a comment, which begins with `#`. -/
def isSkipped (settings : LineSettings) (line : NumberedLine) : Bool :=
  (settings.skipBlankLines && Text.isBlank line.text) ||
    (settings.skipComments && Text.firstVisible? line.text == some '#')

/-- The lines of a source that are not skipped. -/
def kept (settings : LineSettings) (source : String) : List NumberedLine :=
  (all source).filter fun line => !line.isSkipped settings

/-- A line is kept exactly when it is one of the source and is not skipped. -/
theorem mem_kept_iff {settings : LineSettings} {source : String} {line : NumberedLine} :
    line ∈ kept settings source ↔ line ∈ all source ∧ line.isSkipped settings = false := by
  simp only [kept, List.mem_filter, Bool.not_eq_true']

end NumberedLine

end ActionString
