import ActionString.OrderedMap

/-!
# TOML tables

A settings file in the TOML format is a table of keys with values. How a table came about decides
what may still be added to it, so a table keeps its origin while the file is read.
-/

namespace ActionString.Toml

/-- A value without parts. Numbers that are not integers, and times, are kept as they are
written. -/
inductive Scalar where
  | string (value : String)
  | boolean (value : Bool)
  | integer (value : Int)
  | float (written : String)
  | time (written : String)
  deriving DecidableEq, Repr

/-- How a table came about. -/
inductive Origin where
  /-- On the way to a table with a header of its own. -/
  | passed
  /-- By its header. -/
  | header
  /-- On the way to a value with a dotted key. -/
  | dotted
  /-- Written between braces. -/
  | inline
  deriving DecidableEq, Repr

/-- A value of a table. -/
inductive Node where
  | scalar (value : Scalar)
  | array (items : List Node)
  | table (origin : Origin) (entries : List (String × Node))
  /-- Tables with the same header, which is written in double brackets. -/
  | tables (items : List (List (String × Node)))

/-- The keys of a table with their values. -/
abbrev Table := List (String × Node)

namespace Table

/-- Gives a key a value in place, or at the end. -/
def put (table : Table) (key : String) (node : Node) : Table :=
  OrderedMap.insertEntry key node table

/-- Changes what stands at the end of a path of headers. Tables on the way are passed or made, and
of tables with the same header the last one is meant. -/
def atHeader (change : Option Node → Option Node) : List String → Table → Option Table
  | [], _ => none
  | [key], table => (change (table.lookup key)).map (table.put key)
  | key :: path, table =>
    match table.lookup key with
    | none => (atHeader change path []).map fun inner => table.put key (.table .passed inner)
    | some (.table origin inner) =>
      if origin = .inline then none
      else (atHeader change path inner).map fun inner => table.put key (.table origin inner)
    | some (.tables items) =>
      match items.getLast? with
      | none => none
      | some last =>
        (atHeader change path last).map fun last =>
          table.put key (.tables (items.dropLast ++ [last]))
    | some _ => none

/-- Makes the table of a header. It may only have been passed before. -/
def define : Option Node → Option Node
  | none => some (.table .header [])
  | some (.table .passed inner) => some (.table .header inner)
  | some _ => none

/-- Adds a table to those with the same header in double brackets. -/
def defineNext : Option Node → Option Node
  | none => some (.tables [[]])
  | some (.tables items) => some (.tables (items ++ [[]]))
  | some _ => none

/-- Changes the contents of the table that was defined last at a header. -/
def changeContents (change : Table → Option Table) : Option Node → Option Node
  | some (.table origin inner) => (change inner).map (.table origin)
  | some (.tables items) =>
    match items.getLast? with
    | none => none
    | some last => (change last).map fun last => .tables (items.dropLast ++ [last])
  | _ => none

/-- Adds a value under a dotted key. The tables on the way are made, or must have come about on the
way to something else; the last of them must be one of dotted keys. -/
def insert (node : Node) : List String → Table → Option Table
  | [], _ => none
  | [key], table =>
    match table.lookup key with
    | none => some (table.put key node)
    | some _ => none
  | key :: path, table =>
    match table.lookup key with
    | none => (insert node path []).map fun inner => table.put key (.table .dotted inner)
    | some (.table origin inner) =>
      if origin = .dotted || (origin = .passed && 1 < path.length) then
        (insert node path inner).map fun inner => table.put key (.table origin inner)
      else none
    | some (.tables items) =>
      match items.getLast? with
      | none => none
      | some last =>
        if 1 < path.length then
          (insert node path last).map fun last =>
            table.put key (.tables (items.dropLast ++ [last]))
        else none
    | some _ => none

end Table

end ActionString.Toml
