import ActionString.Toml.Number

/-!
# TOML documents

A document is read line by line: headers open tables, and keys with values fill the table that was
opened last. A document that breaks a rule is refused as a whole.
-/

namespace ActionString.Toml

/-- Skips blanks on a line. -/
def skipBlanks (text : List Char) : List Char :=
  text.dropWhile fun c => c = ' ' || c = '\t'

/-- Skips blanks, line ends and comments. A comment is under way while `comment` holds. -/
def skipLines (comment : Bool) : List Char → Option (List Char)
  | [] => some []
  | '\n' :: rest => skipLines false rest
  | '\r' :: '\n' :: rest => skipLines false rest
  | c :: rest =>
    if comment then
      if isAllowed c then skipLines true rest else none
    else if c = ' ' || c = '\t' then skipLines false rest
    else if c = '#' then skipLines true rest
    else some (c :: rest)

/-- Skips what may follow on a line: blanks and a comment, up to the line end. -/
def skipRest (comment : Bool) : List Char → Option (List Char)
  | [] => some []
  | '\n' :: rest => some rest
  | '\r' :: '\n' :: rest => some rest
  | c :: rest =>
    if comment then
      if isAllowed c then skipRest true rest else none
    else if c = ' ' || c = '\t' then skipRest false rest
    else if c = '#' then skipRest true rest
    else none

/-- Whether a character may stand in a bare key. -/
def isKeyChar (c : Char) : Bool := c.isAlphanum || c = '_' || c = '-'

/-- The part of a key at the front of a text. -/
def keyPart? (text : List Char) : Option (String × List Char) :=
  match text with
  | '\x22' :: rest => (lineString '\x22' rest).map fun (key, rest) => (String.ofList key, rest)
  | '\x27' :: rest => (lineString '\x27' rest).map fun (key, rest) => (String.ofList key, rest)
  | _ =>
    let key := text.takeWhile isKeyChar
    if key.isEmpty then none else some (String.ofList key, text.dropWhile isKeyChar)

/-- The key at the front of a text, with dots between its parts. The count bounds the parts. -/
def key? : Nat → List Char → Option (List String × List Char)
  | 0, _ => none
  | count + 1, text => do
    let (part, rest) ← keyPart? (skipBlanks text)
    match skipBlanks rest with
    | '.' :: rest =>
      let (parts, rest) ← key? count rest
      return (part :: parts, rest)
    | rest => return ([part], rest)

/-- How deep values may be nested. -/
def nesting : Nat := 80

mutual

/-- The value at the front of a text. The count bounds the steps. -/
def value? (depth : Nat) : Nat → List Char → Option (Node × List Char)
  | 0, _ => none
  | count + 1, text =>
    match text with
    | '[' :: rest =>
      if nesting ≤ depth then none
      else (items? (depth + 1) count rest).map fun (items, rest) => (.array items, rest)
    | '\x7b' :: rest =>
      if nesting ≤ depth then none
      else
        (members? (depth + 1) count [] rest).map fun (table, rest) => (.table .inline table, rest)
    | '\x22' :: _ =>
      (anyString? text).map fun (string, rest) =>
        (.scalar (.string (String.ofList string)), rest)
    | '\x27' :: _ =>
      (anyString? text).map fun (string, rest) =>
        (.scalar (.string (String.ofList string)), rest)
    | _ =>
      let (bare, rest) := splitBare text
      (bareScalar? bare).map fun value => (.scalar value, rest)

/-- The items of an array after its opening bracket or a comma. -/
def items? (depth : Nat) : Nat → List Char → Option (List Node × List Char)
  | 0, _ => none
  | count + 1, text => do
    match ← skipLines false text with
    | ']' :: rest => return ([], rest)
    | text =>
      let (item, rest) ← value? depth count text
      match ← skipLines false rest with
      | ']' :: rest => return ([item], rest)
      | ',' :: rest =>
        let (items, rest) ← items? depth count rest
        return (item :: items, rest)
      | _ => none

/-- The members of an inline table after its opening brace or a comma, added to those before. -/
def members? (depth : Nat) : Nat → Table → List Char → Option (Table × List Char)
  | 0, _, _ => none
  | count + 1, table, text => do
    match ← skipLines false text with
    | '\x7d' :: rest => return (table, rest)
    | text =>
      let (path, rest) ← key? text.length text
      let '=' :: rest := skipBlanks rest | none
      let (node, rest) ← value? depth count (skipBlanks rest)
      let table ← table.insert node path
      match ← skipLines false rest with
      | '\x7d' :: rest => return (table, rest)
      | ',' :: rest => members? depth count table rest
      | _ => none

end

/-- A document that is being read: its table so far and the header that was read last. -/
structure Reading where
  table : Table
  header : List String

/-- Adds a value under a key of the table that was opened last. -/
def Reading.insert (reading : Reading) (path : List String) (node : Node) : Option Reading :=
  let change := Table.insert node path
  let table :=
    if reading.header.isEmpty then change reading.table
    else Table.atHeader (Table.changeContents change) reading.header reading.table
  table.map fun table => { reading with table }

/-- Opens the table of a header. -/
def Reading.openTable (reading : Reading) (path : List String)
    (change : Option Node → Option Node) : Option Reading :=
  (Table.atHeader change path reading.table).map fun table => ⟨table, path⟩

/-- Reads one line, or what of it is not blank. -/
def Reading.line (reading : Reading) (text : List Char) : Option (Reading × List Char) := do
  match text with
  | '[' :: '[' :: rest =>
    let (path, rest) ← key? text.length rest
    let ']' :: ']' :: rest := rest | none
    return (← reading.openTable path Table.defineNext, ← skipRest false rest)
  | '[' :: rest =>
    let (path, rest) ← key? text.length rest
    let ']' :: rest := rest | none
    return (← reading.openTable path Table.define, ← skipRest false rest)
  | _ =>
    let (path, rest) ← key? text.length text
    let '=' :: rest := skipBlanks rest | none
    let (node, rest) ← value? 0 (2 * text.length) (skipBlanks rest)
    return (← reading.insert path node, ← skipRest false rest)

/-- Reads line after line. The count bounds the lines. -/
def Reading.lines : Nat → Reading → List Char → Option Table
  | 0, _, _ => none
  | count + 1, reading, text => do
    match ← skipLines false text with
    | [] => return reading.table
    | text =>
      let (reading, rest) ← reading.line text
      lines count reading rest

/-- The table of a document, unless it breaks a rule. A byte order mark at its front is
skipped. -/
def read? (document : String) : Option Table :=
  let text := match document.toList with
    | '\ufeff' :: rest => rest
    | text => text
  Reading.lines (text.length + 1) ⟨[], []⟩ text

end ActionString.Toml
