/-!
# ASCII case

Command words and trigger words are compared without regard to the case of ASCII letters. All other
characters must agree exactly.
-/

namespace ActionString.Text

/-- A text with its ASCII capitals lowered. -/
def foldCase (text : String) : String :=
  String.ofList (text.toList.map Char.toLower)

/-- Whether two texts agree up to the case of ASCII letters. -/
def sameFolded (first second : String) : Bool :=
  foldCase first == foldCase second

/-- Texts agree up to case when their lowered characters are the same. -/
theorem sameFolded_iff {first second : String} :
    sameFolded first second = true ↔
      first.toList.map Char.toLower = second.toList.map Char.toLower := by
  rw [sameFolded, beq_iff_eq, foldCase, foldCase, String.ofList_inj]

/-- The characters at the front of `text` that spell `word` up to the case of ASCII letters, and
the text after them. -/
def stripFolded : (word text : List Char) → Option (List Char × List Char)
  | [], text => some ([], text)
  | _ :: _, [] => none
  | w :: word, c :: text =>
    if c.toLower = w.toLower then
      (stripFolded word text).map fun (spelt, rest) => (c :: spelt, rest)
    else none

/-- What is spelt at the front and what is left make up the text. -/
theorem eq_append_of_stripFolded {word text spelt rest : List Char}
    (found : stripFolded word text = some (spelt, rest)) : text = spelt ++ rest := by
  induction word generalizing text spelt with
  | nil =>
    simp only [stripFolded, Option.some.injEq, Prod.mk.injEq] at found
    simp [← found.1, found.2]
  | cons w word ih =>
    cases text with
    | nil => simp [stripFolded] at found
    | cons c text =>
      by_cases same : c.toLower = w.toLower
      · simp only [stripFolded, same, if_true, Option.map_eq_some_iff] at found
        obtain ⟨⟨spelt', rest'⟩, inner, outer⟩ := found
        simp only [Prod.mk.injEq] at outer
        obtain ⟨rfl, rfl⟩ := outer
        rw [List.cons_append, ← ih inner]
      · simp [stripFolded, same] at found

end ActionString.Text
