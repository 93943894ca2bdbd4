/-!
# Lines of a text

A line ends at a newline, or at a carriage return followed by a newline. The last line may lack its
end, and a carriage return alone ends nothing.
-/

namespace ActionString.Text

/-- The lines of a text without their ends. -/
def splitLines : List Char → List (List Char)
  | [] => []
  | '\n' :: rest => [] :: splitLines rest
  | '\r' :: '\n' :: rest => [] :: splitLines rest
  | c :: rest =>
    match splitLines rest with
    | [] => [[c]]
    | line :: more => (c :: line) :: more

end ActionString.Text
