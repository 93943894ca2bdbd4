/-!
# Byte offsets

Places in a text are counted in bytes of its UTF-8 form, while the rules read characters. A text is
split at an offset by taking the characters that fit into it, so an offset inside a character
stands for the start of that character.
-/

namespace ActionString.Text

/-- The number of bytes of a text in UTF-8. -/
def byteSize : List Char → Nat
  | [] => 0
  | c :: text => c.utf8Size + byteSize text

/-- The characters that fit into the first `offset` bytes, and those after them. -/
def splitAtByte : Nat → List Char → List Char × List Char
  | _, [] => ([], [])
  | offset, c :: rest =>
    if c.utf8Size ≤ offset then
      let (before, after) := splitAtByte (offset - c.utf8Size) rest
      (c :: before, after)
    else ([], c :: rest)

@[simp] theorem byteSize_nil : byteSize [] = 0 := rfl

@[simp] theorem byteSize_cons (c : Char) (text : List Char) :
    byteSize (c :: text) = c.utf8Size + byteSize text := rfl

@[simp] theorem byteSize_append (first second : List Char) :
    byteSize (first ++ second) = byteSize first + byteSize second := by
  induction first with
  | nil => simp
  | cons c rest ih => simp only [List.cons_append, byteSize_cons, ih, Nat.add_assoc]

/-- Splitting loses nothing. -/
theorem splitAtByte_append (offset : Nat) (text : List Char) :
    (splitAtByte offset text).1 ++ (splitAtByte offset text).2 = text := by
  induction text generalizing offset with
  | nil => rfl
  | cons c rest ih =>
    by_cases fits : c.utf8Size ≤ offset
    · simp only [splitAtByte, fits, if_true, List.cons_append, ih]
    · simp only [splitAtByte, fits, if_false, List.nil_append]

/-- The first part fits into the offset. -/
theorem byteSize_splitAtByte_le (offset : Nat) (text : List Char) :
    byteSize (splitAtByte offset text).1 ≤ offset := by
  induction text generalizing offset with
  | nil => simp [splitAtByte]
  | cons c rest ih =>
    by_cases fits : c.utf8Size ≤ offset
    · have := ih (offset - c.utf8Size)
      simp only [splitAtByte, fits, if_true, byteSize_cons]
      omega
    · simp [splitAtByte, fits]

end ActionString.Text
