import ActionString.Batch.Run
import ActionString.CommandLine

/-!
# The program

Gathers the files that a command line asks for, runs over them, and hands on what the run leaves
behind.
-/

namespace ActionString.Main

/-- The text that explains the command line. -/
def usage : String :=
  "Usage: awaction [OPTIONS] <INPUT>\n\n" ++
  "Arguments:\n" ++
  "  <INPUT>  Path to the input file\n\n" ++
  "Options:\n" ++
  "  -o, --output <OUTPUT>        Path to the output JSON file, stdout when omitted\n" ++
  "  -c, --config <CONFIG>        Path to configuration file (TOML)\n" ++
  "      --log-level <LOG_LEVEL>  Log level (off, error, warn, info, debug, trace)\n" ++
  "      --debug                  Report only the rejected lines with their diagnostics\n" ++
  "      --strict                 Fail on the first rejected line\n" ++
  "  -h, --help                   Print help\n" ++
  "  -V, --version                Print version\n"

/-- What is wrong with a command line. -/
def complaint : UsageError → String
  | .missingInput => "error: the input file is missing"
  | .unknownArgument => "error: unexpected argument"
  | .missingValue => "error: an option lacks its value"
  | .repeated => "error: an option cannot be used multiple times"
  | .needlessValue => "error: an option takes no value"
  | .help | .version => ""

/-- The bytes of a file, if it can be read. -/
def readFile? (path : String) : IO (Option ByteArray) := do
  try
    return some (← IO.FS.readBinFile path)
  catch _ =>
    return none

/-- All bytes of a stream after those read so far. -/
partial def drain (stream : IO.FS.Stream) (bytes : ByteArray) : IO ByteArray := do
  let more ← stream.read 65536
  if more.isEmpty then return bytes
  else drain stream (bytes ++ more)

/-- The source at a path; a dash stands for the standard input. -/
def readSource (path : String) : IO (Option ByteArray) := do
  if path = "-" then return some (← drain (← IO.getStdin) ByteArray.empty)
  else readFile? path

/-- The settings of the user. -/
def readSystemSettings : IO (Option ByteArray) := do
  match ← IO.getEnv "XDG_CONFIG_HOME" with
  | some home => readFile? (home ++ "/awaction/config.toml")
  | none =>
    match ← IO.getEnv "HOME" with
    | some home => readFile? (home ++ "/.config/awaction/config.toml")
    | none => return none

/-- The files that a command line asks for. -/
def gather (line : CommandLine) : IO Files := do
  let namedSettings ← match line.config with
    | some path => pure (some (path, ← readFile? path))
    | none => pure none
  return {
    source := ← readSource line.input
    namedSettings
    localSettings := ← readFile? "awaction/config.toml"
    systemSettings := ← readSystemSettings }

/-- Writes a text to the output of a command line. -/
def deliver (line : CommandLine) (text : String) : IO Unit :=
  match line.output with
  | none => IO.print text
  | some path => if path = "-" then IO.print text else IO.FS.writeFile path text

/-- A notice as it is shown to the user. -/
def shown (notice : Notice) : String :=
  let code := match notice.code with
    | some code => code ++ ": "
    | none => ""
  let labels := (notice.labels.getD []).map fun label =>
    "\n  at byte " ++ toString label.span.start ++ ": " ++ label.text
  code ++ notice.message ++ String.join labels

/-- Runs as a command line asks, and gives the exit code. -/
def runLine (line : CommandLine) : IO UInt32 := do
  let result := run (← gather line) { debug := line.debug, strict := line.strict }
  match result.failure with
  | some failure =>
    IO.eprintln (shown failure.notice)
    return 1
  | none =>
    deliver line (result.written.getD "")
    return 0

end ActionString.Main

/-- Runs the program with the words of its command line. -/
def main (words : List String) : IO UInt32 := do
  match ActionString.CommandLine.ofWords words with
  | .ok line => ActionString.Main.runLine line
  | .error .help =>
    IO.print ActionString.Main.usage
    return 0
  | .error .version =>
    IO.println "awaction 0.1.0"
    return 0
  | .error error =>
    IO.eprintln (ActionString.Main.complaint error)
    return 2
