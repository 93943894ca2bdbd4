/-!
# The command line

A command line names the source, and with options the output, the settings and how to report. An
option with a value takes it after an equals sign or as the next word; a short one takes it in the
same word as well. After `--` every word names the source.
-/

namespace ActionString

/-- What a command line asks for. -/
structure CommandLine where
  input : String
  output : Option String
  config : Option String
  logLevel : String
  debug : Bool
  strict : Bool
  deriving DecidableEq, Repr

/-- Why a command line asks for nothing. -/
inductive UsageError where
  | missingInput
  | unknownArgument
  | missingValue
  | repeated
  | needlessValue
  | help
  | version
  deriving DecidableEq, Repr

namespace CommandLine

/-- An option with a value. -/
inductive ValueOption where
  | output
  | config
  | logLevel
  deriving DecidableEq, Repr

/-- An option without a value. -/
inductive Switch where
  | debug
  | strict
  | help
  | version
  deriving DecidableEq, Repr

/-- The option with a value that a long name stands for. -/
def longValueOption? (name : String) : Option ValueOption :=
  [("output", .output), ("config", .config), ("log-level", .logLevel)].lookup name

/-- The switch that a long name stands for. -/
def longSwitch? (name : String) : Option Switch :=
  [("debug", .debug), ("strict", .strict), ("help", .help), ("version", .version)].lookup name

/-- The option with a value that a letter stands for. -/
def shortValueOption? (letter : Char) : Option ValueOption :=
  [('o', .output), ('c', .config)].lookup letter

/-- The switch that a letter stands for. -/
def shortSwitch? (letter : Char) : Option Switch :=
  [('h', .help), ('V', .version)].lookup letter

/-- An option that was begun, and its value once it has come. -/
structure Pending where
  option : ValueOption
  value : Option String
  deriving DecidableEq, Repr

/-- What has been read of a command line. -/
structure Progress where
  input : Option String := none
  output : Option String := none
  config : Option String := none
  logLevel : Option String := none
  debug : Bool := false
  strict : Bool := false
  pending : Option Pending := none
  /-- Whether `--` has come. -/
  trailing : Bool := false
  deriving DecidableEq, Repr

namespace Progress

/-- The value of an option so far. -/
def valueOf (progress : Progress) : ValueOption → Option String
  | .output => progress.output
  | .config => progress.config
  | .logLevel => progress.logLevel

/-- Gives an option its value, which it may have only once. -/
def assign (progress : Progress) (option : ValueOption) (value : String) :
    Except UsageError Progress :=
  if (progress.valueOf option).isSome then .error .repeated
  else
    .ok (match option with
      | .output => { progress with output := value }
      | .config => { progress with config := value }
      | .logLevel => { progress with logLevel := value })

/-- Settles the option that was begun last, which must have its value by now. -/
def settle (progress : Progress) : Except UsageError Progress :=
  match progress.pending with
  | none => .ok progress
  | some ⟨_, none⟩ => .error .missingValue
  | some ⟨option, some value⟩ => { progress with pending := none }.assign option value

/-- Begins an option, with the value that came along with it, if any. -/
def begin (progress : Progress) (option : ValueOption) (attached : Option String) :
    Except UsageError Progress := do
  let settled ← progress.settle
  match attached with
  | some value => settled.assign option value
  | none => return { settled with pending := some ⟨option, none⟩ }

/-- Turns on a switch, which may come only once. -/
def turnOn (progress : Progress) (switch : Switch) : Except UsageError Progress := do
  let settled ← progress.settle
  match switch with
  | .debug => if settled.debug then throw .repeated else return { settled with debug := true }
  | .strict => if settled.strict then throw .repeated else return { settled with strict := true }
  | .help => throw .help
  | .version => throw .version

/-- Reads a word that begins with two dashes, of which `body` is the rest. -/
def readLong (progress : Progress) (body : List Char) : Except UsageError Progress :=
  let name := String.ofList (body.takeWhile (· ≠ '='))
  let attached := match body.dropWhile (· ≠ '=') with
    | [] => none
    | _ :: value => some (String.ofList value)
  match longValueOption? name, longSwitch? name with
  | some option, _ => progress.begin option attached
  | none, some switch => if attached.isSome then .error .needlessValue else progress.turnOn switch
  | none, none => .error .unknownArgument

/-- Reads the letters of a word that begins with one dash. -/
def readShort (progress : Progress) : List Char → Except UsageError Progress
  | [] => .ok progress
  | letter :: rest =>
    match shortSwitch? letter, shortValueOption? letter with
    | some switch, _ => do readShort (← progress.turnOn switch) rest
    | none, some option =>
      progress.begin option <|
        match rest with
        | [] => none
        | '=' :: value => some (String.ofList value)
        | value => some (String.ofList value)
    | none, none => .error .unknownArgument

/-- Reads a word that names the source. -/
def readInput (progress : Progress) (word : String) : Except UsageError Progress :=
  if progress.input.isSome then .error .unknownArgument
  else progress.settle.map fun settled => { settled with input := word }

/-- Reads one word. -/
def readWord (progress : Progress) (word : String) : Except UsageError Progress :=
  if progress.trailing then progress.readInput word
  else
    match word.toList with
    | ['-', '-'] => .ok { progress with trailing := true }
    | '-' :: '-' :: body => progress.readLong body
    | '-' :: letter :: rest => progress.readShort (letter :: rest)
    | _ =>
      match progress.pending with
      | some ⟨option, none⟩ => .ok { progress with pending := some ⟨option, some word⟩ }
      | _ => progress.readInput word

/-- What has been read, once all words have come. -/
def finish (progress : Progress) : Except UsageError CommandLine := do
  let settled ← progress.settle
  match settled.input with
  | none => throw .missingInput
  | some input =>
    return {
      input
      output := settled.output
      config := settled.config
      logLevel := settled.logLevel.getD "info"
      debug := settled.debug
      strict := settled.strict }

end Progress

/-- Reads the words of a command line after the name of the program. -/
def ofWords (words : List String) : Except UsageError CommandLine := do
  let progress ← words.foldlM Progress.readWord {}
  progress.finish

end CommandLine

end ActionString
