import ActionString.Diagnostic

/-!
# Failures of a run

A run fails for one cause. A failure is shown on one line, or as a notice with a code and, for a
rejected line, a label at the place of the error.
-/

namespace ActionString

/-- What went wrong with a file. -/
inductive FileFault where
  | missing
  | notText
  deriving DecidableEq, Repr

/-- The description of what went wrong with a file. -/
def FileFault.description : FileFault → String
  | missing => "No such file or directory (os error 2)"
  | notText => "stream did not contain valid UTF-8"

/-- Why a run failed. -/
inductive Failure where
  /-- A file cannot be read. -/
  | file (fault : FileFault)
  /-- The settings cannot be understood. -/
  | malformedSettings
  /-- The file that was named for the settings is not there. -/
  | missingSettings (path : String)
  /-- A line cannot be read. -/
  | rejected (line : Nat) (diagnostic : Diagnostic) (source : String)
  deriving DecidableEq, Repr

/-- A labelled range of a source. -/
structure Label where
  span : Span
  text : String
  deriving DecidableEq, Repr

/-- What is shown of a failure. -/
structure Notice where
  message : String
  code : Option String
  labels : Option (List Label)
  source : Option String
  deriving DecidableEq, Repr

namespace Failure

/-- A failure on one line. -/
def message : Failure → String
  | file fault => "I/O error: " ++ fault.description
  | malformedSettings => "Configuration error: Failed to parse TOML configuration"
  | missingSettings path => "Configuration error: Missing configuration file: " ++ path
  | rejected line diagnostic _ => "line " ++ toString line ++ ": " ++ diagnostic.display

/-- What is shown of a failure. A rejected line is shown with its source and with a label at the
place of the error. -/
def notice (failure : Failure) : Notice :=
  match failure with
  | file _ => ⟨failure.message, some "awaction::io", none, none⟩
  | malformedSettings | missingSettings _ =>
    ⟨failure.message, some "awaction::config", none, none⟩
  | rejected _ diagnostic source =>
    ⟨diagnostic.complaint.message, some diagnostic.complaint.code,
      some [⟨diagnostic.span, diagnostic.label⟩], some source⟩

end Failure

end ActionString
