import ActionString.Color.Token

/-!
# TOML strings

Strings stand between quotes or apostrophes, one or three of them. Between quotes a backslash begins
an escape; between apostrophes every character stands for itself.
-/

namespace ActionString.Toml

/-- A text that is split into a front part and the rest. -/
abbrev Split := Option (List Char × List Char)

/-- Puts characters before the front part. -/
def Split.push (split : Split) (characters : List Char) : Split :=
  split.map fun (front, rest) => (characters ++ front, rest)

/-- Whether a character may stand in a string or a comment: controls may not, but for the
tabulator. -/
def isAllowed (c : Char) : Bool :=
  c = '\t' || (' ' ≤ c && c ≠ '\x7f')

/-- The front of a text up to a closing mark on the same line. After a backslash, where it escapes,
the next character closes nothing. -/
def untilMark (mark : Char) (escapes : Bool) : List Char → Split
  | [] => none
  | '\\' :: c :: rest =>
    if escapes then (untilMark mark escapes rest).push ['\\', c]
    else if c = mark then some (['\\'], rest)
    else if c = '\n' then none
    else (untilMark mark escapes rest).push ['\\', c]
  | c :: rest =>
    if c = mark then some ([], rest)
    else if c = '\n' then none
    else (untilMark mark escapes rest).push [c]

/-- The front of a text up to three closing marks. Up to two more marks before them belong to the
front. -/
def untilMarks (mark : Char) (escapes : Bool) : List Char → Split
  | a :: b :: c :: d :: e :: rest =>
    if a = mark && b = mark && c = mark then
      if d = mark && e = mark then some ([mark, mark], rest)
      else if d = mark then some ([mark], e :: rest)
      else some ([], d :: e :: rest)
    else if escapes && a = '\\' then
      (untilMarks mark escapes (c :: d :: e :: rest)).push [a, b]
    else (untilMarks mark escapes (b :: c :: d :: e :: rest)).push [a]
  | [a, b, c, d] =>
    if a = mark && b = mark && c = mark then
      if d = mark then some ([mark], []) else some ([], [d])
    else if escapes && a = '\\' then none
    else if b = mark && c = mark && d = mark then some ([a], [])
    else none
  | [a, b, c] => if a = mark && b = mark && c = mark then some ([], []) else none
  | _ => none

/-- The number that hexadecimal digits stand for. -/
def hexNumber? (digits : List Char) : Option Nat :=
  digits.foldlM (fun value c => (Color.hexDigit? c).map (16 * value + ·)) 0

/-- The character with a code point in hexadecimal digits. -/
def charOfHex? (digits : List Char) : Option Char :=
  (hexNumber? digits).bind fun n => if n.isValidChar then some (Char.ofNat n) else none

/-- The character that stands for a letter after a backslash. -/
def escaped? (c : Char) : Option Char :=
  [('b', '\x08'), ('t', '\t'), ('n', '\n'), ('f', '\x0c'), ('r', '\r'), ('e', '\x1b'),
    ('\x22', '\x22'), ('\\', '\\')].lookup c

/-- The string between single quotes. -/
def decodeLine : List Char → Option (List Char)
  | [] => some []
  | '\\' :: 'x' :: a :: b :: rest =>
    return (← charOfHex? [a, b]) :: (← decodeLine rest)
  | '\\' :: 'u' :: a :: b :: c :: d :: rest =>
    return (← charOfHex? [a, b, c, d]) :: (← decodeLine rest)
  | '\\' :: 'U' :: a :: b :: c :: d :: e :: f :: g :: h :: rest =>
    return (← charOfHex? [a, b, c, d, e, f, g, h]) :: (← decodeLine rest)
  | '\\' :: c :: rest => return (← escaped? c) :: (← decodeLine rest)
  | c :: rest => if c ≠ '\\' && isAllowed c then (decodeLine rest).map (c :: ·) else none

/-- Whether the first line of a text is blank and ends. -/
def endsBlank (text : List Char) : Bool :=
  match text.dropWhile fun c => c = ' ' || c = '\t' with
  | '\n' :: _ => true
  | '\r' :: '\n' :: _ => true
  | _ => false

/-- The string between three quotes. A backslash at the end of a line removes the line end and all
blanks and line ends after it, which is under way while `trims` holds. -/
def decodeLines (trims : Bool) : List Char → Option (List Char)
  | [] => some []
  | '\r' :: '\n' :: rest =>
    if trims then decodeLines true rest else (decodeLines false rest).map ('\n' :: ·)
  | '\\' :: 'x' :: a :: b :: rest =>
    return (← charOfHex? [a, b]) :: (← decodeLines false rest)
  | '\\' :: 'u' :: a :: b :: c :: d :: rest =>
    return (← charOfHex? [a, b, c, d]) :: (← decodeLines false rest)
  | '\\' :: 'U' :: a :: b :: c :: d :: e :: f :: g :: h :: rest =>
    return (← charOfHex? [a, b, c, d, e, f, g, h]) :: (← decodeLines false rest)
  | '\\' :: c :: rest =>
    if endsBlank (c :: rest) then decodeLines true (c :: rest)
    else return (← escaped? c) :: (← decodeLines false rest)
  | c :: rest =>
    if trims && (c = ' ' || c = '\t' || c = '\n') then decodeLines true rest
    else if c ≠ '\\' && (c = '\n' || isAllowed c) then (decodeLines false rest).map (c :: ·)
    else none

/-- The string between three apostrophes. -/
def literalLines : List Char → Option (List Char)
  | [] => some []
  | '\r' :: '\n' :: rest => (literalLines rest).map ('\n' :: ·)
  | c :: rest => if c = '\n' || isAllowed c then (literalLines rest).map (c :: ·) else none

/-- A text without the line end at its front. -/
def dropLineEnd : List Char → List Char
  | '\n' :: rest => rest
  | '\r' :: '\n' :: rest => rest
  | text => text

/-- The string on one line after an opening mark. -/
def lineString (mark : Char) (text : List Char) : Split := do
  let escapes := mark = '\x22'
  let (body, rest) ← untilMark mark escapes text
  if escapes then return (← decodeLine body, rest)
  else if body.all isAllowed then return (body, rest)
  else none

/-- The string over several lines after three opening marks. -/
def linesString (mark : Char) (text : List Char) : Split := do
  let escapes := mark = '\x22'
  let (body, rest) ← untilMarks mark escapes (dropLineEnd text)
  if escapes then return (← decodeLines false body, rest)
  else return (← literalLines body, rest)

/-- The string at the front of a text that begins with a quote or an apostrophe. -/
def anyString? : List Char → Split
  | a :: b :: c :: rest =>
    if a = '\x22' || a = '\x27' then
      if b = a && c = a then linesString a rest else lineString a (b :: c :: rest)
    else none
  | a :: rest => if a = '\x22' || a = '\x27' then lineString a rest else none
  | [] => none

end ActionString.Toml
