import ActionString.Toml.Document

/-!
# Settings

The settings of a run say how results are written and which lines are skipped. They are read from a
TOML document with the tables `output` and `input`. Keys that mean nothing are ignored, and keys
that are missing have their defaults.
-/

namespace ActionString

/-- Which lines are skipped. -/
structure LineSettings where
  skipComments : Bool := true
  skipBlankLines : Bool := true
  deriving DecidableEq, Repr

/-- How a run reads lines and writes results. -/
structure Settings where
  /-- Whether results are written over several lines. -/
  pretty : Bool := true
  lines : LineSettings := {}
  deriving DecidableEq, Repr

namespace Settings

/-- A switch with a default. Any value but a boolean is refused. -/
def switch (default : Bool) : Option Toml.Node → Option Bool
  | none => some default
  | some (.scalar (.boolean value)) => some value
  | some _ => none

/-- Looks switches up in a section, by their names or by their places. A section may be a table, an
array with the switches in their order, or a time, which holds no switch. -/
def lookUp : Toml.Node → Option (String → Nat → Option Toml.Node)
  | .table _ entries => some fun name _ => entries.lookup name
  | .array items => some fun _ place => items[place]?
  | .tables items => some fun _ place => (items[place]?).map (Toml.Node.table .header)
  | .scalar (.time _) => some fun _ _ => none
  | .scalar _ => none

/-- The switches of a section that may be missing. -/
def sectionOf (table : Toml.Table) (name : String) :
    Option (String → Nat → Option Toml.Node) :=
  match table.lookup name with
  | none => some fun _ _ => none
  | some node => lookUp node

/-- The settings of a table, unless a value has the wrong form. -/
def ofTable? (table : Toml.Table) : Option Settings := do
  let output ← sectionOf table "output"
  let input ← sectionOf table "input"
  let defaults : Settings := {}
  return {
    pretty := ← switch defaults.pretty (output "pretty" 0)
    lines := {
      skipComments := ← switch defaults.lines.skipComments (input "skip_comments" 0)
      skipBlankLines := ← switch defaults.lines.skipBlankLines (input "skip_blank_lines" 1) } }

/-- The settings of a TOML document. -/
def ofDocument? (document : String) : Option Settings :=
  (Toml.read? document).bind ofTable?

end Settings

end ActionString
