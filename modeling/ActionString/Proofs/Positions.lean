import ActionString.Proofs.Diagnostics
import ActionString.Proofs.ExpectedOrder

/-!
# The place of a diagnostic

A diagnostic that is made for a byte of a text stands at the last boundary between characters that
is not behind this byte. Its line and its column lead from the beginning of the text to this place,
and its report shows the line of the place with the caret under the character there.
-/

namespace ActionString

namespace Text

/-- A place of a text, counted in bytes, that is not inside a character. -/
def IsBoundary (text : List Char) (place : Nat) : Prop :=
  ∃ before after, text = before ++ after ∧ place = byteSize before

/-- The bytes of a text before the place that is some lines down and then some characters on, if
the text goes so far. -/
def walk? : Nat → Nat → List Char → Option Nat
  | 0, 0, _ => some 0
  | 0, columns + 1, c :: rest => (walk? 0 columns rest).map (c.utf8Size + ·)
  | lines + 1, columns, c :: rest =>
    (walk? (if c = '\n' then lines else lines + 1) columns rest).map (c.utf8Size + ·)
  | _, _, [] => none

/-- A text is split behind every front of it that takes no more bytes than asked for. -/
theorem byteSize_le_byteSize_splitAtByte {before : List Char} {offset : Nat}
    (fits : byteSize before ≤ offset) (after : List Char) :
    byteSize before ≤ byteSize (splitAtByte offset (before ++ after)).1 := by
  induction before generalizing offset with
  | nil => exact Nat.zero_le _
  | cons c before ih =>
    rw [byteSize_cons] at fits
    have first : c.utf8Size ≤ offset := by omega
    have others := @ih (offset - c.utf8Size) (by omega)
    rw [List.cons_append, splitAtByte, if_pos first, byteSize_cons, byteSize_cons]
    omega

/-- A text is split at its last boundary that is not behind the given byte. -/
theorem isGreatest_splitAtByte (offset : Nat) (text : List Char) :
    IsGreatest {place | IsBoundary text place ∧ place ≤ min offset (byteSize text)}
      (byteSize (splitAtByte offset text).1) := by
  have whole := splitAtByte_append offset text
  have size : byteSize (splitAtByte offset text).1 ≤ byteSize text := by
    have parts := congrArg byteSize whole
    rw [byteSize_append] at parts
    omega
  constructor
  · exact ⟨⟨_, _, whole.symm, rfl⟩, Nat.le_min.mpr ⟨byteSize_splitAtByte_le offset text, size⟩⟩
  · rintro place ⟨⟨before, after, rfl, rfl⟩, bound⟩
    exact byteSize_le_byteSize_splitAtByte (Nat.le_min.mp bound).1 after

/-- Walking over characters counts their bytes. -/
theorem walk?_length (line after : List Char) :
    walk? 0 line.length (line ++ after) = some (byteSize line) := by
  induction line with
  | nil => cases after <;> rfl
  | cons c line ih => rw [List.cons_append, List.length_cons, walk?, ih, Option.map_some, byteSize_cons]

/-- Walking over as many newlines as there are up to the last one of some lines leads behind it. -/
theorem walk?_count (earlier rest : List Char) (columns : Nat) :
    walk? (earlier.count '\n' + 1) columns (earlier ++ '\n' :: rest) =
      (walk? 0 columns rest).map (byteSize (earlier ++ ['\n']) + ·) := by
  induction earlier with
  | nil =>
    rw [List.nil_append, List.count_nil, walk?, if_pos rfl]
    rfl
  | cons c earlier ih =>
    have lines : (if c = '\n' then (c :: earlier).count '\n' else (c :: earlier).count '\n' + 1) =
        earlier.count '\n' + 1 := by
      by_cases newline : c = '\n'
      · rw [if_pos newline, newline, List.count_cons_self]
      · rw [if_neg newline, List.count_cons_of_ne newline]
    rw [List.cons_append, walk?, lines, ih, Option.map_map]
    refine congrArg (Option.map · _) (funext fun bytes => ?_)
    rw [Function.comp_apply, List.cons_append, byteSize_cons]
    omega

/-- A text is cut at each of its separators. -/
theorem length_splitOn (separator : Char) (text : List Char) :
    (text.splitOn separator).length = text.count separator + 1 := by
  induction text with
  | nil => rfl
  | cons c rest ih =>
    rw [List.splitOn_cons_eq_if_modifyHead, List.count_cons, ← Nat.add_right_comm, ← ih]
    split
    · rw [List.length_cons]
    · rw [List.length_modifyHead, Nat.add_zero]

end Text

namespace Diagnostic

/-- No newline stands in the last line. -/
theorem newline_not_mem_lastLine (text : List Char) : '\n' ∉ lastLine text := by
  intro member
  rw [lastLine, List.mem_reverse] at member
  simpa using List.mem_takeWhile_imp member

/-- No newline stands in the first line. -/
theorem newline_not_mem_firstLine (text : List Char) : '\n' ∉ firstLine text := by
  intro member
  simpa using List.mem_takeWhile_imp member

/-- A text is its last line, or ends in it behind a newline. -/
theorem eq_lastLine_or (text : List Char) :
    text = lastLine text ∨ ∃ earlier, text = earlier ++ '\n' :: lastLine text := by
  have parts : text = (text.reverse.dropWhile (· ≠ '\n')).reverse ++ lastLine text := by
    rw [lastLine, ← List.reverse_append, List.takeWhile_append_dropWhile, List.reverse_reverse]
  cases others : text.reverse.dropWhile (· ≠ '\n') with
  | nil =>
    rw [others] at parts
    exact .inl parts
  | cons c rest =>
    have newline : c = '\n' := by
      have refused := List.head?_dropWhile_not (fun c : Char => decide (c ≠ '\n')) text.reverse
      rw [others] at refused
      simpa using refused
    rw [others, newline, List.reverse_cons, List.append_assoc] at parts
    exact .inr ⟨rest.reverse, parts⟩

/-- A text is its first line, or goes on behind it with a newline. -/
theorem eq_firstLine_or (text : List Char) :
    text = firstLine text ∨ ∃ rest, text = firstLine text ++ '\n' :: rest := by
  have parts : text = firstLine text ++ text.dropWhile (· ≠ '\n') :=
    List.takeWhile_append_dropWhile.symm
  cases others : text.dropWhile (· ≠ '\n') with
  | nil =>
    rw [others, List.append_nil] at parts
    exact .inl parts
  | cons c rest =>
    have newline : c = '\n' := by
      have refused := List.head?_dropWhile_not (fun c : Char => decide (c ≠ '\n')) text
      rw [others] at refused
      simpa using refused
    rw [others, newline] at parts
    exact .inr ⟨rest, parts⟩

/-- The number of newlines before a place and the characters since the last of them lead to it. -/
theorem walk?_lastLine (before after : List Char) :
    Text.walk? (before.count '\n') (lastLine before).length (before ++ after) =
      some (Text.byteSize before) := by
  obtain only | ⟨earlier, parts⟩ := eq_lastLine_or before
  · have none : before.count '\n' = 0 := by
      rw [only]
      exact List.count_eq_zero_of_not_mem (newline_not_mem_lastLine before)
    rw [none, ← only]
    exact Text.walk?_length before after
  · have lines : before.count '\n' = earlier.count '\n' + 1 := by
      rw [parts, List.count_append, List.count_cons_self,
        List.count_eq_zero_of_not_mem (newline_not_mem_lastLine before)]
    have bytes : Text.byteSize before =
        Text.byteSize (earlier ++ ['\n']) + Text.byteSize (lastLine before) := by
      rw [← Text.byteSize_append, List.append_assoc]
      exact congrArg Text.byteSize parts
    have whole : before ++ after = earlier ++ '\n' :: (lastLine before ++ after) := by
      rw [← List.cons_append, ← List.append_assoc, ← parts]
    rw [lines, whole, Text.walk?_count, Text.walk?_length, Option.map_some, ← bytes]

/-- The first of the lines of a text that begins with a line. -/
theorem getElem?_splitOn_zero {line : List Char} (inside : '\n' ∉ line) (after : List Char) :
    ((line ++ after).splitOn '\n')[0]? = some (line ++ firstLine after) := by
  have whole : '\n' ∉ line ++ firstLine after := by
    rw [List.mem_append, not_or]
    exact ⟨inside, newline_not_mem_firstLine after⟩
  obtain only | ⟨rest, parts⟩ := eq_firstLine_or after
  · rw [← only] at whole ⊢
    rw [List.splitOn_eq_singleton whole]
    rfl
  · have split : line ++ after = line ++ firstLine after ++ '\n' :: rest := by
      rw [List.append_assoc, ← parts]
    rw [split, List.splitOn_append_cons_self_of_not_mem whole]
    rfl

/-- The line of a place is the line after as many lines as there are newlines before the place. -/
theorem getElem?_splitOn_count (before after : List Char) :
    ((before ++ after).splitOn '\n')[before.count '\n']? =
      some (lastLine before ++ firstLine after) := by
  have inside := newline_not_mem_lastLine before
  obtain only | ⟨earlier, parts⟩ := eq_lastLine_or before
  · have none : before.count '\n' = 0 := by
      rw [only]
      exact List.count_eq_zero_of_not_mem inside
    rw [← only] at inside ⊢
    rw [none]
    exact getElem?_splitOn_zero inside after
  · have lines : before.count '\n' = earlier.count '\n' + 1 := by
      rw [parts, List.count_append, List.count_cons_self,
        List.count_eq_zero_of_not_mem inside]
    have whole : before ++ after = earlier ++ '\n' :: (lastLine before ++ after) := by
      rw [← List.cons_append, ← List.append_assoc, ← parts]
    rw [lines, whole, List.splitOn_append_cons_self, List.getElem?_append_right
      (Text.length_splitOn _ _).le, Text.length_splitOn, Nat.sub_self]
    exact getElem?_splitOn_zero inside after

/-- The lines and the columns of a diagnostic lead to its place, and it covers the character there,
or nothing at the end. -/
structure Located (before after : List Char) (diagnostic : Diagnostic) : Prop where
  line_eq : diagnostic.line = before.count '\n' + 1
  column_pos : 0 < diagnostic.column
  walk : Text.walk? (diagnostic.line - 1) (diagnostic.column - 1) (before ++ after) =
    some (Text.byteSize before)
  start_eq : diagnostic.span.start = Text.byteSize before
  length_eq : diagnostic.span.length = after.head?.elim 0 Char.utf8Size
  code_eq : diagnostic.complaint.code = if after = [] then "E101" else "E100"

/-- The first line of a report, with the place in numbers. -/
def heading (diagnostic : Diagnostic) : String :=
  "Line " ++ toString diagnostic.line ++ ", col " ++ toString diagnostic.column ++ ":"

/-- A caret behind as many spaces as there are characters in the gutter and in the columns before
the place. -/
def caretLine (diagnostic : Diagnostic) : List Char :=
  List.replicate (diagnostic.gutter.length + (diagnostic.column - 1)) ' ' ++ ['^']

/-- The second line of a report is the line of the place behind a gutter. In the third line a caret
stands under the character at the place, or behind the line where that is a newline or the end. -/
structure Shown (before after : List Char) (diagnostic : Diagnostic) : Prop where
  report_lines : ∃ more, diagnostic.report.toList.splitOn '\n' =
    diagnostic.heading.toList ::
      ("> " ++ toString diagnostic.line ++ " | " ++ diagnostic.lineText).toList ::
        diagnostic.caretLine :: more
  excerpt : ((before ++ after).splitOn '\n')[diagnostic.line - 1]? = some diagnostic.lineText.toList
  under : ∀ c ∈ after.head?, c ≠ '\n' → (diagnostic.gutter ++ diagnostic.lineText).toList[
    diagnostic.gutter.length + (diagnostic.column - 1)]? = some c
  behind : (∀ c ∈ after.head?, c = '\n') →
    diagnostic.gutter.length + (diagnostic.column - 1) =
      (diagnostic.gutter ++ diagnostic.lineText).length

section

variable (before after : List Char) (expected : List Expected)

/-- A diagnostic shows the line of its place. -/
theorem toList_lineText_atOffset :
    (atOffset (before ++ after) (Text.byteSize before) expected).lineText.toList =
      lastLine before ++ firstLine after := by
  rw [atOffset, Text.splitAtByte_byteSize]
  exact String.toList_ofList

/-- The line of a diagnostic counts the newlines before its place. -/
theorem line_atOffset_byteSize :
    (atOffset (before ++ after) (Text.byteSize before) expected).line =
      before.count '\n' + 1 := by
  rw [atOffset, Text.splitAtByte_byteSize]

/-- The column of a diagnostic counts the characters of its line before its place. -/
theorem column_atOffset :
    (atOffset (before ++ after) (Text.byteSize before) expected).column =
      (lastLine before).length + 1 := by
  rw [atOffset, Text.splitAtByte_byteSize]

/-- A diagnostic lists what it is made for in order. -/
theorem expected_atOffset :
    (atOffset (before ++ after) (Text.byteSize before) expected).expected =
      Expected.ordered expected := by
  rw [atOffset, Text.splitAtByte_byteSize]

/-- A diagnostic is located at the place that it is made for. -/
theorem located_atOffset :
    (atOffset (before ++ after) (Text.byteSize before) expected).Located before after where
  line_eq := line_atOffset_byteSize before after expected
  column_pos := by
    rw [column_atOffset]
    exact Nat.succ_pos _
  walk := by
    rw [line_atOffset_byteSize, column_atOffset]
    exact walk?_lastLine before after
  start_eq := span_start_atOffset before after expected
  length_eq := span_length_atOffset before after expected
  code_eq := by
    rw [complaint_atOffset]
    cases after <;> rfl

end

/-- A number is written without newlines. -/
theorem newline_not_mem_toString (number : Nat) : '\n' ∉ (toString number).toList := by
  have digits : (toString number).toList = Nat.toDigits 10 number := Nat.toList_repr
  rw [digits]
  intro member
  exact absurd (Nat.isDigit_of_mem_toDigits (by decide) (by decide) member) (by decide)

/-- No newline stands in a gutter. -/
theorem newline_not_mem_gutter (diagnostic : Diagnostic) :
    '\n' ∉ diagnostic.gutter.toList := by
  rw [gutter, String.toList_append, String.toList_append, List.mem_append, List.mem_append,
    not_or, not_or]
  exact ⟨⟨by decide, newline_not_mem_toString _⟩, by decide⟩

/-- A report is its heading, its excerpt behind the gutter and its caret, each on a line, with
nothing or further lines behind. -/
theorem exists_toList_report {diagnostic : Diagnostic} (positive : 0 < diagnostic.column) :
    ∃ rest, (rest = [] ∨ ∃ more, rest = '\n' :: more) ∧
      diagnostic.report.toList = diagnostic.heading.toList ++
        '\n' :: ((diagnostic.gutter ++ diagnostic.lineText).toList ++
          '\n' :: (diagnostic.caretLine ++ rest)) := by
  refine ⟨(if diagnostic.expected.isEmpty then ""
      else "\nExpected " ++ alternatives diagnostic.expected).toList, ?_, ?_⟩
  · split
    · exact .inl rfl
    · exact .inr ⟨_, String.toList_append⟩
  · have spaces : diagnostic.gutter.length + diagnostic.column - 1 =
        diagnostic.gutter.length + (diagnostic.column - 1) := Nat.add_sub_assoc positive _
    unfold report
    simp [heading, caretLine, spaces]

/-- A report has its excerpt in its second line and its caret in the third. -/
theorem exists_splitOn_report {diagnostic : Diagnostic}
    (inside : '\n' ∉ diagnostic.lineText.toList) (positive : 0 < diagnostic.column) :
    ∃ more, diagnostic.report.toList.splitOn '\n' = diagnostic.heading.toList ::
      (diagnostic.gutter ++ diagnostic.lineText).toList :: diagnostic.caretLine :: more := by
  have heading : '\n' ∉ diagnostic.heading.toList := by
    simp only [heading, String.toList_append, List.mem_append, not_or]
    exact ⟨⟨⟨⟨by decide, newline_not_mem_toString _⟩, by decide⟩, newline_not_mem_toString _⟩,
      by decide⟩
  have shown : '\n' ∉ (diagnostic.gutter ++ diagnostic.lineText).toList := by
    rw [String.toList_append, List.mem_append, not_or]
    exact ⟨diagnostic.newline_not_mem_gutter, inside⟩
  have caret : '\n' ∉ diagnostic.caretLine := by
    rw [caretLine, List.mem_append, not_or, List.mem_replicate]
    exact ⟨fun space => absurd space.2 (by decide), by decide⟩
  obtain ⟨rest, ends, parts⟩ := exists_toList_report positive
  rw [parts, List.splitOn_append_cons_self_of_not_mem heading,
    List.splitOn_append_cons_self_of_not_mem shown]
  obtain rfl | ⟨more, rfl⟩ := ends
  · rw [List.append_nil, List.splitOn_eq_singleton caret]
    exact ⟨_, rfl⟩
  · rw [List.splitOn_append_cons_self_of_not_mem caret]
    exact ⟨_, rfl⟩

/-- A text that begins with another character than a newline has a first line that begins with
it. -/
theorem head?_firstLine {text : List Char} {c : Char} (front : c ∈ text.head?) (other : c ≠ '\n') :
    (firstLine text).head? = some c := by
  obtain ⟨rest, rfl⟩ := List.head?_eq_some_iff.mp front
  rw [firstLine, List.takeWhile_cons_of_pos (by simpa using other)]
  rfl

/-- A text that is empty or begins with a newline has an empty first line. -/
theorem firstLine_eq_nil {text : List Char} (ends : ∀ c ∈ text.head?, c = '\n') :
    firstLine text = [] := by
  cases text with
  | nil => rfl
  | cons c rest => exact List.takeWhile_cons_of_neg (by simpa using ends c rfl)

/-- The report of a diagnostic shows the place that the diagnostic is made for. -/
theorem shown_atOffset (before after : List Char) (expected : List Expected) :
    (atOffset (before ++ after) (Text.byteSize before) expected).Shown before after := by
  have line := line_atOffset_byteSize before after expected
  have column := column_atOffset before after expected
  have text := toList_lineText_atOffset before after expected
  generalize atOffset (before ++ after) (Text.byteSize before) expected = diagnostic at *
  have place : diagnostic.gutter.length + (diagnostic.column - 1) =
      (diagnostic.gutter.toList ++ lastLine before).length := by
    rw [column, Nat.add_sub_cancel, List.length_append, String.length_toList]
  have shown : (diagnostic.gutter ++ diagnostic.lineText).toList =
      diagnostic.gutter.toList ++ lastLine before ++ firstLine after := by
    rw [String.toList_append, text, List.append_assoc]
  constructor
  case report_lines =>
    have inside : '\n' ∉ diagnostic.lineText.toList := by
      rw [text, List.mem_append, not_or]
      exact ⟨newline_not_mem_lastLine before, newline_not_mem_firstLine after⟩
    exact exists_splitOn_report inside (column ▸ Nat.succ_pos _)
  case excerpt =>
    rw [text, line, Nat.add_sub_cancel]
    exact getElem?_splitOn_count before after
  case under =>
    intro c front other
    rw [place, shown, List.getElem?_append_right le_rfl, Nat.sub_self, ← List.head?_eq_getElem?]
    exact head?_firstLine front other
  case behind =>
    intro ends
    rw [place, ← String.length_toList, shown, firstLine_eq_nil ends, List.append_nil]

/-- A byte of a source stands for the last boundary that is not behind it. -/
theorem atOffset_splitAtByte (source : List Char) (offset : Nat) (expected : List Expected) :
    atOffset source offset expected =
      atOffset source (Text.byteSize (Text.splitAtByte offset source).1) expected := by
  have same : Text.splitAtByte (Text.byteSize (Text.splitAtByte offset source).1) source =
      Text.splitAtByte offset source := by
    have split := Text.splitAtByte_byteSize (Text.splitAtByte offset source).1
      (Text.splitAtByte offset source).2
    rwa [Text.splitAtByte_append] at split
  rw [atOffset, atOffset, same]

/-- For any byte of a source there is a last boundary between characters that is neither behind it
nor behind the end. The diagnostic that is made for the byte is located there, and its report shows
the place. It lists in strict order what it is given, in whatever order and however often. -/
theorem atOffset_located (source : List Char) (offset : Nat) (expected : List Expected) :
    ∃ before after, source = before ++ after ∧
      IsGreatest {place | Text.IsBoundary source place ∧
        place ≤ min offset (Text.byteSize source)} (Text.byteSize before) ∧
      (atOffset source offset expected).Located before after ∧
      (atOffset source offset expected).Shown before after ∧
      Expected.Increasing (atOffset source offset expected).expected ∧
      (∀ item, item ∈ (atOffset source offset expected).expected ↔ item ∈ expected) ∧
      ∀ others, (∀ item, item ∈ others ↔ item ∈ expected) →
        atOffset source offset others = atOffset source offset expected := by
  have whole := Text.splitAtByte_append offset source
  have place := Text.isGreatest_splitAtByte offset source
  have made (items : List Expected) := atOffset_splitAtByte source offset items
  generalize (Text.splitAtByte offset source).1 = before at *
  generalize (Text.splitAtByte offset source).2 = after at *
  subst whole
  refine ⟨before, after, rfl, place, ?_⟩
  rw [made, expected_atOffset]
  refine ⟨located_atOffset before after expected, shown_atOffset before after expected,
    Expected.increasing_ordered expected, fun item => Expected.mem_ordered, fun others same => ?_⟩
  rw [made, atOffset, Expected.ordered_eq_of_mem_iff same]
  rfl

end Diagnostic

end ActionString
