import ActionString.Batch.Failure
import ActionString.Batch.Line
import ActionString.Json.Record
import ActionString.Json.Render
import ActionString.Parse

/-!
# Runs

A run reads its settings and its source, parses the source line by line, and writes one JSON array.
It is a function of the files that are there: the settings are taken from the first of the named,
the local and the system file, and they are read before the source.
-/

namespace ActionString

/-- How rejected lines are treated. -/
structure Options where
  /-- Report only the rejected lines, each with its diagnostic. -/
  debug : Bool := false
  /-- Fail at the first rejected line. -/
  strict : Bool := false
  deriving DecidableEq, Repr

/-- The files that a run may read. -/
structure Files where
  /-- The source, if it is there. -/
  source : Option ByteArray
  /-- The path that was named for the settings, and the file at that path, if it is there. -/
  namedSettings : Option (String × Option ByteArray) := none
  /-- The settings in the working directory. -/
  localSettings : Option ByteArray := none
  /-- The settings of the user. -/
  systemSettings : Option ByteArray := none

/-- What a run leaves behind: a failure or nothing to say, and what it wrote. -/
structure RunResult where
  failure : Option Failure
  written : Option String
  deriving DecidableEq, Repr

namespace Run

/-- The text of a file. -/
def textOf : Option ByteArray → Except Failure String
  | none => .error (.file .missing)
  | some bytes =>
    match String.fromUTF8? bytes with
    | some text => .ok text
    | none => .error (.file .notText)

/-- The settings in a file. -/
def settingsIn (bytes : ByteArray) : Except Failure Settings := do
  let document ← textOf (some bytes)
  match Settings.ofDocument? document with
  | some settings => return settings
  | none => throw .malformedSettings

/-- The settings of a run: those of the first file that is there. A file that was named must be
there, and without any file the defaults hold. -/
def settings (files : Files) : Except Failure Settings :=
  match files.namedSettings with
  | some (_, some bytes) => settingsIn bytes
  | some (path, none) => .error (.missingSettings path)
  | none =>
    match files.localSettings, files.systemSettings with
    | some bytes, _ => settingsIn bytes
    | none, some bytes => settingsIn bytes
    | none, none => .ok {}

/-- The report of a line with its actions. -/
def parsedLine (line : NumberedLine) (actions : ActionMap) : Json :=
  .object [("line", .integer line.number), ("source", .string line.text),
    ("actions", ActionMap.toJson actions)]

/-- The report of a rejected line with its diagnostic. -/
def rejectedLine (line : NumberedLine) (diagnostic : String) : Json :=
  .object [("line", .integer line.number), ("source", .string line.text),
    ("diagnostic", .string diagnostic)]

/-- The reports of the rejected lines. -/
def rejectedLines (lines : List NumberedLine) : List Json :=
  (lines.map fun line => (line, explain line.text)).filterMap fun (line, diagnostic) =>
    if diagnostic.isEmpty then none else some (rejectedLine line diagnostic)

/-- The report of a line. A rejected line fails a strict run, and has no actions in any other. -/
def reportLine (strict : Bool) (line : NumberedLine) : Except Failure Json :=
  match tryParse line.text with
  | .ok actions => .ok (parsedLine line actions)
  | .error diagnostic =>
    if strict then .error (.rejected line.number diagnostic line.text)
    else .ok (parsedLine line ∅)

/-- The reports of all lines. -/
def parsedLines (strict : Bool) (lines : List NumberedLine) : Except Failure (List Json) :=
  lines.mapM (reportLine strict)

/-- The text of reports. -/
def write (settings : Settings) (reports : List Json) : String :=
  if settings.pretty then Json.pretty (.array reports) else Json.compact (.array reports)

/-- The text of the report on a source. -/
def render (source : String) (settings : Settings) (options : Options) :
    Except Failure String :=
  let lines := NumberedLine.kept settings.lines source
  if options.debug then .ok (write settings (rejectedLines lines))
  else (parsedLines options.strict lines).map (write settings)

/-- The text that a run writes, or why it fails. -/
def output (files : Files) (options : Options) : Except Failure String := do
  let settings ← settings files
  let source ← textOf files.source
  let report ← render source settings options
  return report ++ "\n"

end Run

/-- A run over the files that are there. -/
def run (files : Files) (options : Options) : RunResult :=
  match Run.output files options with
  | .ok text => ⟨none, some text⟩
  | .error failure => ⟨some failure, none⟩

end ActionString
