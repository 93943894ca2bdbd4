import ActionString.Proofs.Reports

/-!
# Numbered lines and the text that they come from

Without settings that skip lines, the lines of a source are numbered one after the other and hold
its whole text: joined with newlines they give back the source, but for the carriage returns before
newlines and for one newline at the end. Settings leave lines out, and change neither the lines that
stay nor their numbers.
-/

namespace ActionString

namespace Text

/-- A text without the carriage returns that stand before newlines. -/
def plainBreaks : List Char → List Char
  | [] => []
  | '\r' :: '\n' :: rest => '\n' :: plainBreaks rest
  | c :: rest => c :: plainBreaks rest

/-- A text without the newline at its end, if there is one. -/
def withoutLastBreak (text : List Char) : List Char :=
  if text.getLast? = some '\n' then text.dropLast else text

/-- Only the empty text has no lines. -/
theorem splitLines_eq_nil_iff {text : List Char} : splitLines text = [] ↔ text = [] := by
  cases text using splitLines.fun_cases with
  | case1 => simp [splitLines]
  | case2 rest => simp [splitLines]
  | case3 rest => simp [splitLines]
  | case4 c rest other pair last => simp [splitLines, last]
  | case5 c rest other pair first more lines => simp [splitLines, lines]

/-- Leaving out carriage returns empties no text. -/
theorem plainBreaks_eq_nil_iff {text : List Char} : plainBreaks text = [] ↔ text = [] := by
  cases text using plainBreaks.fun_cases with
  | case1 => simp [plainBreaks]
  | case2 rest => simp [plainBreaks]
  | case3 c rest pair => simp [plainBreaks]

/-- The end of a text is the end of what comes after its first character. -/
theorem withoutLastBreak_cons (c : Char) {text : List Char} (more : text ≠ []) :
    withoutLastBreak (c :: text) = c :: withoutLastBreak text := by
  obtain ⟨d, rest, rfl⟩ := List.exists_cons_of_ne_nil more
  rw [withoutLastBreak, withoutLastBreak, List.getLast?_cons_cons]
  split <;> rfl

/-- An empty line in front of the lines of a text is a newline in front of the text. -/
theorem intercalate_nil_cons {rest : List Char}
    (joined : ['\n'].intercalate (splitLines rest) = withoutLastBreak (plainBreaks rest)) :
    ['\n'].intercalate ([] :: splitLines rest) = withoutLastBreak ('\n' :: plainBreaks rest) := by
  cases lines : splitLines rest with
  | nil =>
    rw [splitLines_eq_nil_iff.mp lines]
    rfl
  | cons first more =>
    have some : plainBreaks rest ≠ [] := by
      rw [Ne, plainBreaks_eq_nil_iff, ← splitLines_eq_nil_iff, lines]
      exact List.cons_ne_nil _ _
    rw [List.intercalate_cons_cons, ← lines, joined, withoutLastBreak_cons _ some]
    rfl

/-- The lines of a text, joined with newlines, give the text without the carriage returns before
newlines and without the last newline. -/
theorem intercalate_splitLines (text : List Char) :
    ['\n'].intercalate (splitLines text) = withoutLastBreak (plainBreaks text) := by
  induction text using splitLines.induct with
  | case1 => rfl
  | case2 rest ih => exact intercalate_nil_cons ih
  | case3 rest ih => exact intercalate_nil_cons ih
  | case4 c rest other pair last ih =>
    rw [splitLines_eq_nil_iff] at last
    subst last
    have single : plainBreaks [c] = [c] := plainBreaks.eq_3 c [] pair
    rw [splitLines, single, withoutLastBreak, if_neg (by simpa using other)]
    · rfl
    · exact other
    · exact pair
  | case5 c rest other pair first more lines ih =>
    have some : plainBreaks rest ≠ [] := by
      rw [Ne, plainBreaks_eq_nil_iff, ← splitLines_eq_nil_iff, lines]
      exact List.cons_ne_nil _ _
    rw [plainBreaks.eq_3 c rest pair, withoutLastBreak_cons c some, ← ih, splitLines, lines]
    · cases more with
      | nil => rfl
      | cons second more => simp [List.intercalate_cons_cons]
    · exact other
    · exact pair

/-- A text is blank exactly when it consists of white space. -/
theorem isBlank_iff (text : String) :
    isBlank text = true ↔ ∀ c ∈ text.toList, isWhiteSpace c = true := by
  rw [isBlank, List.all_eq_true]

/-- The first visible character of a text stands behind white space only. -/
theorem firstVisible?_eq_some_iff {text : String} {c : Char} (visible : isWhiteSpace c = false) :
    firstVisible? text = some c ↔
      ∃ before after, text.toList = before ++ c :: after ∧ ∀ d ∈ before, isWhiteSpace d = true := by
  rw [firstVisible?, List.head?_eq_some_iff]
  constructor
  · rintro ⟨after, same⟩
    refine ⟨text.toList.takeWhile isWhiteSpace, after, ?_, fun d member => ?_⟩
    · rw [← same, List.takeWhile_append_dropWhile]
    · exact List.mem_takeWhile_imp member
  · rintro ⟨before, after, same, blank⟩
    refine ⟨after, ?_⟩
    rw [same, List.dropWhile_append_of_pos blank, List.dropWhile_cons_of_neg (by simp [visible])]

end Text

namespace NumberedLine

/-- Whether a line consists of white space. -/
def Blank (line : NumberedLine) : Prop := ∀ c ∈ line.text.toList, Text.isWhiteSpace c = true

/-- Whether the first character of a line that is not white space is `#`. -/
def Comment (line : NumberedLine) : Prop :=
  ∃ before after, line.text.toList = before ++ '#' :: after ∧
    ∀ c ∈ before, Text.isWhiteSpace c = true

/-- A line is skipped as blank or as a comment where the settings say so. -/
theorem isSkipped_eq_false_iff {settings : LineSettings} {line : NumberedLine} :
    line.isSkipped settings = false ↔
      ¬(settings.skipBlankLines = true ∧ line.Blank) ∧
        ¬(settings.skipComments = true ∧ line.Comment) := by
  have visible : Text.isWhiteSpace '#' = false := by decide
  rw [isSkipped, Bool.or_eq_false_iff, ← Bool.not_eq_true, ← Bool.not_eq_true, Bool.and_eq_true,
    Bool.and_eq_true, Text.isBlank_iff, beq_iff_eq, Text.firstVisible?_eq_some_iff visible]
  rfl

/-- Where nothing is skipped, all lines are kept. -/
theorem kept_of_skip_nothing (source : String) : kept ⟨false, false⟩ source = all source := by
  rw [kept, List.filter_eq_self]
  exact fun line _ => rfl

/-- Lines are numbered one after the other. -/
theorem map_number_all (source : String) :
    (all source).map number = List.range' 1 (all source).length := by
  have numbers : (all source).map number =
      ((Text.splitLines source.toList).zipIdx.map Prod.snd).map (1 + ·) := by
    rw [all, List.map_map, List.map_map]
    exact List.map_congr_left fun line _ => Nat.add_comm line.2 1
  rw [numbers, List.zipIdx_map_snd, List.map_add_range', all, List.length_map, List.length_zipIdx]

/-- The texts of all lines are the lines of the source. -/
theorem map_text_all (source : String) :
    (all source).map text = (Text.splitLines source.toList).map String.ofList := by
  have texts : (all source).map text =
      ((Text.splitLines source.toList).zipIdx.map Prod.fst).map String.ofList := by
    rw [all, List.map_map, List.map_map]
    exact List.map_congr_left fun _ _ => rfl
  rw [texts, List.zipIdx_map_fst]

/-- With nothing skipped, the kept lines are numbered from one on and, joined with newlines, are the
source without the carriage returns before newlines and without the newline at its end. Other
settings keep a part of them in the same order and with the same numbers, without exactly the blank
lines and the comments that they skip. No kept line holds a newline. -/
theorem kept_lossless (source : String) :
    (kept ⟨false, false⟩ source).map number =
        List.range' 1 (kept ⟨false, false⟩ source).length ∧
      "\n".intercalate ((kept ⟨false, false⟩ source).map text) =
        String.ofList (Text.withoutLastBreak (Text.plainBreaks source.toList)) ∧
      ∀ settings, (kept settings source).Sublist (kept ⟨false, false⟩ source) ∧
        (∀ line, line ∈ kept settings source ↔
          line ∈ kept ⟨false, false⟩ source ∧ ¬(settings.skipBlankLines = true ∧ line.Blank) ∧
            ¬(settings.skipComments = true ∧ line.Comment)) ∧
        ∀ line ∈ kept settings source, '\n' ∉ line.text.toList := by
  rw [kept_of_skip_nothing]
  refine ⟨map_number_all source, ?_, fun settings => ⟨List.filter_sublist, fun line => ?_,
    fun line => newline_not_mem_of_mem_kept⟩⟩
  · have lists : String.toList ∘ String.ofList = id := funext fun _ => String.toList_ofList
    have newline : "\n".toList = ['\n'] := rfl
    rw [← String.toList_inj, String.toList_intercalate, newline, map_text_all, List.map_map, lists,
      List.map_id, String.toList_ofList, Text.intercalate_splitLines]
  · rw [mem_kept_iff, isSkipped_eq_false_iff]

end NumberedLine

end ActionString
