import ActionString.Batch.Run

/-!
# The text of a report

A report is a JSON array with an object for each line that it tells of. Its text is a list of entries,
which have the number of the line, its text and what is said of it as members. It is on one line, or
over several with each entry and each member on lines of their own.
-/

namespace ActionString.Run

/-- Entries between brackets, on one line or each on a line of its own. -/
def listed (pretty : Bool) (entries : List String) : String :=
  if pretty then
    if entries.isEmpty then "[]" else "[\n  " ++ String.intercalate ",\n  " entries ++ "\n]"
  else "[" ++ String.intercalate "," entries ++ "]"

/-- An entry with its members between braces, each behind its key. -/
def entry (pretty : Bool) (members : List (String × String)) : String :=
  if pretty then
    "\x7b\n    " ++ String.intercalate ",\n    "
      (members.map fun (key, text) => "\x22" ++ key ++ "\x22" ++ ": " ++ text) ++ "\n  \x7d"
  else
    "\x7b" ++ String.intercalate ","
      (members.map fun (key, text) => "\x22" ++ key ++ "\x22" ++ ":" ++ text) ++ "\x7d"

end ActionString.Run
