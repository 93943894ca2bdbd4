import ActionString.Proofs.Isolation
import ActionString.Proofs.Lenient
import ActionString.Proofs.Pieces
import ActionString.Proofs.Reaching

/-!
# Spellings of triggers and commands

A trigger and the word of its first command may be spelt in any ASCII case and with any spaces
before, between and after them. What is read is the same but for one thing: where the command turns
out to be unrecognised its text is kept as it is spelt, and merging drops it. So all spellings stand
for the same actions.
-/

namespace ActionString

namespace Grammar

open Rule

/-- Two results are alike when both are there, their values are related, and the texts that are left
differ by spaces at most. -/
def Alike {α : Type} (related : α → α → Prop) (first second : Option (α × List Char)) : Prop :=
  ∃ value rest other last, first = some (value, rest) ∧ second = some (other, last) ∧
    related value other ∧ strip rest = strip last

/-- Phrases are alike when they are the same or both unrecognised. -/
def AlikePhrases (first second : Phrase) : Prop :=
  first = second ∨ ∃ text other, first = .unrecognized text ∧ second = .unrecognized other

/-- Clauses are alike when only their first phrases may differ, and these are alike. -/
def AlikeClauses (first second : Clause) : Prop :=
  ∃ trigger phrase other more, first = ⟨trigger, phrase :: more⟩ ∧
    second = ⟨trigger, other :: more⟩ ∧ AlikePhrases phrase other

/-- Lists of clauses are alike when they differ in one place by alike clauses. -/
def AlikeLists (first second : List Clause) : Prop :=
  ∃ earlier clause other later, first = earlier ++ clause :: later ∧
    second = earlier ++ other :: later ∧ AlikeClauses clause other

/-- A text that begins with a trigger and the word of a command, in any ASCII case and with any
spaces between them; `rest` is what comes after the word. -/
def Heading (trigger : Trigger) (kind : CommandKind) (text rest : List Char) : Prop :=
  ∃ spelt spaces word, text = spelt ++ (spaces ++ (word ++ rest)) ∧ blank spaces = true ∧
    spelt.map Char.toLower = trigger.word.toList.map Char.toLower ∧
    word.map Char.toLower = kind.word.toList.map Char.toLower

/-- A character that is no separator is part of an unrecognised command. -/
theorem unseparated {c : Char} (other : ∀ d ∈ Stops.both.chars, c ≠ d) :
    (c ≠ ';' && c ≠ ',') = true := by
  simp [other ';' (by decide), other ',' (by decide)]

/-- Whatever its word and the spaces after it, an unrecognised command ends before the next
separator. -/
theorem dropWhile_word {kind : CommandKind} {word : List Char}
    (same : word.map Char.toLower = kind.word.toList.map Char.toLower) (rest : List Char) :
    (word ++ rest).dropWhile (fun c => c ≠ ';' && c ≠ ',') =
      (strip rest).dropWhile fun c => c ≠ ';' && c ≠ ',' := by
  have letters : ∀ c ∈ word, (c ≠ ';' && c ≠ ',') = true := fun c member =>
    unseparated (plain_of_isAlpha (isAlpha_of_same (isAlpha_kind kind) same c member)).2
  have spaces : ∀ c, isSpace c = true → (c ≠ ';' && c ≠ ',') = true := by
    intro c space
    refine unseparated fun d stop equal => ?_
    rw [equal, Stops.both.solid d stop] at space
    cases space
  rw [List.dropWhile_append_of_pos letters, dropWhile_strip spaces]

/-- Commands with the same word and the same text after it are alike. -/
theorem alike_phrase {kind : CommandKind} (known : kind ∈ CommandKind.recognized)
    {word other rest last : List Char}
    (sameWord : word.map Char.toLower = kind.word.toList.map Char.toLower)
    (sameOther : other.map Char.toLower = kind.word.toList.map Char.toLower)
    (same : strip rest = strip last) :
    Alike AlikePhrases (phrase (word ++ rest)).result (phrase (other ++ last)).result := by
  obtain ⟨body, made, lenient⟩ := Lenient.exists_body known
  have read {spelt : List Char}
      (folded : spelt.map Char.toLower = kind.word.toList.map Char.toLower)
      (text : List Char) : (phrase (spelt ++ text)).result =
        (body text).result.or (unrecognized (spelt ++ text)).result := by
    rw [result_phrase_of_same known folded, made,
      result_bind_of_some (result_keyword_of_same folded text)]
  rw [read sameWord, read sameOther]
  cases found : (body rest).result with
  | some pair =>
    obtain ⟨value, after⟩ := pair
    obtain ⟨left, result, equal⟩ := lenient.exists_result same found
    rw [result]
    exact ⟨value, after, value, left, rfl, rfl, .inl rfl, equal⟩
  | none =>
    rw [lenient.result_eq_none same found]
    refine ⟨_, _, _, _, rfl, rfl, .inr ⟨_, _, rfl, rfl⟩, ?_⟩
    rw [dropWhile_word sameWord, dropWhile_word sameOther, same]

/-- Clauses with the same heading and the same text after it are alike. -/
theorem Heading.alike_clause {trigger : Trigger} {kind : CommandKind}
    (known : kind ∈ CommandKind.recognized) {first second rest last : List Char}
    (heading : Heading trigger kind first rest) (other : Heading trigger kind second last)
    (same : strip rest = strip last) :
    Alike AlikeClauses (clause first).result (clause second).result := by
  obtain ⟨spelt, spaces, word, rfl, blanks, sameSpelt, sameWord⟩ := heading
  obtain ⟨otherSpelt, otherSpaces, otherWord, rfl, otherBlanks, sameOther, sameOtherWord⟩ := other
  obtain ⟨value, after, otherValue, left, found, otherFound, alike, equal⟩ :=
    alike_phrase known sameWord sameOtherWord same
  have solid {word : List Char} (folded : word.map Char.toLower = kind.word.toList.map Char.toLower)
      {spaces : List Char} (blanks : blank spaces = true) (text : List Char) :
      strip (spaces ++ (word ++ text)) = word ++ text := by
    rw [strip_append_of_blank blanks]
    exact ((solid_kind folded).append text).strip
  rw [← solid sameWord blanks] at found
  rw [← solid sameOtherWord otherBlanks] at otherFound
  rw [result_clause_of_some (result_trigger_of_same sameSpelt _) found,
    result_clause_of_some (result_trigger_of_same sameOther _) otherFound]
  obtain ⟨more, ending, result⟩ := exists_result_morePhrases after
  obtain ⟨otherEnding, otherResult, endings⟩ := Lenient.morePhrases.exists_result equal result
  rw [result, otherResult]
  exact ⟨_, _, _, _, rfl, rfl, ⟨trigger, value, otherValue, more, rfl, rfl, alike⟩, endings⟩

/-- Lists of clauses that begin with the same heading are alike. -/
theorem Heading.alike_someClauses {trigger : Trigger} {kind : CommandKind}
    (known : kind ∈ CommandKind.recognized) {first second rest last : List Char}
    (heading : Heading trigger kind first rest) (other : Heading trigger kind second last)
    (same : strip rest = strip last) :
    Alike AlikeLists (someClauses first).result (someClauses second).result := by
  obtain ⟨value, after, otherValue, left, found, otherFound, alike, equal⟩ :=
    heading.alike_clause known other same
  obtain ⟨more, ending, result⟩ := exists_result_followers ";" clause after
  obtain ⟨otherEnding, otherResult, endings⟩ :=
    (Lenient.followers rfl clause).exists_result equal result
  rw [someClauses, result_bind_of_some found, result_bind_of_some otherFound, result_map,
    result_map, result, otherResult]
  exact ⟨_, _, _, _, rfl, rfl, ⟨[], value, otherValue, more, rfl, rfl, alike⟩, endings⟩

/-- A text where a clause may begin: at the beginning, or behind a semicolon without quotes before
it. -/
def Opens (front : List Char) : Prop :=
  front = [] ∨ (∀ c ∈ front, c ≠ '\x22') ∧ front.getLast? = some ';'

/-- Texts are read alike when both are rejected, or both are read as alike lists of clauses. -/
def AlikeReads (first second : List Char) : Prop :=
  ((∀ found, read first ≠ .ok found) ∧ ∀ found, read second ≠ .ok found) ∨
    ∃ found other, read first = .ok found ∧ read second = .ok other ∧ AlikeLists found other

/-- Alike lists of clauses with the same text after them are read alike. -/
theorem alikeReads_of_alike {first second : List Char}
    (alike : Alike AlikeLists (separated ";" clause first).result
      (separated ";" clause second).result) : AlikeReads first second := by
  obtain ⟨found, rest, other, last, list, otherList, alike, same⟩ := alike
  by_cases closes : Closes rest
  · exact .inr ⟨found, other, read_eq_ok_iff.mpr ⟨rest, list, closes⟩,
      read_eq_ok_iff.mpr ⟨last, otherList, (closes_congr same).mp closes⟩, alike⟩
  · exact .inl ⟨read_ne_ok list closes, read_ne_ok otherList fun closed =>
      closes ((closes_congr same).mpr closed)⟩

/-- A text with a heading is solid. -/
theorem Heading.solid {trigger : Trigger} {kind : CommandKind} {text rest : List Char}
    (heading : Heading trigger kind text rest) : Solid text := by
  obtain ⟨spelt, spaces, word, rfl, -, same, -⟩ := heading
  exact (solid_trigger same).append _

/-- However a heading is spelt, and whatever spaces stand before it, it is read alike where a clause
may begin. -/
theorem Heading.alike_read {trigger : Trigger} {kind : CommandKind}
    (known : kind ∈ CommandKind.recognized) {first second rest last : List Char}
    (heading : Heading trigger kind first rest) (other : Heading trigger kind second last)
    (same : strip rest = strip last) {front spaces otherSpaces : List Char} (opens : Opens front)
    (blanks : blank spaces = true) (otherBlanks : blank otherSpaces = true) :
    AlikeReads (front ++ (spaces ++ first)) (front ++ (otherSpaces ++ second)) := by
  obtain ⟨values, ending, others, otherEnding, list, otherList, alike, endings⟩ :=
    heading.alike_someClauses known other same
  have stripped {spaces : List Char} (blanks : blank spaces = true) {text rest : List Char}
      (heading : Heading trigger kind text rest) : strip (spaces ++ text) = text := by
    rw [strip_append_of_blank blanks, heading.solid.strip]
  obtain rfl | ⟨unquoted, semicolon⟩ := opens
  · apply alikeReads_of_alike
    rw [List.nil_append, List.nil_append, result_separated_eq, result_separated_eq,
      stripped blanks heading, stripped otherBlanks other, list, otherList]
    exact ⟨values, ending, others, otherEnding, rfl, rfl, alike, endings⟩
  · obtain ⟨before, rfl⟩ := List.getLast?_eq_some_iff.mp semicolon
    rw [List.append_assoc, List.append_assoc, List.singleton_append, List.singleton_append]
    rw [List.forall_mem_append] at unquoted
    cases reaching_separated before unquoted.1 with
    | stopped values rest found =>
      have solid {spaces : List Char} (blanks : blank spaces = true) {text rest : List Char}
          (heading : Heading trigger kind text rest) : blank (spaces ++ text) = false := by
        obtain ⟨c, front, -⟩ := heading.solid
        rw [Bool.eq_false_iff, Ne, ← strip_eq_nil_iff, stripped blanks heading]
        rintro rfl
        cases front
      exact .inl ⟨read_ne_ok (found _) (not_closes_semicolon rest (solid blanks heading)),
        read_ne_ok (found _) (not_closes_semicolon rest (solid otherBlanks other))⟩
    | reached earlier found =>
      have passed {spaces : List Char} (blanks : blank spaces = true) {text rest : List Char}
          (heading : Heading trigger kind text rest) : passOver ';' (spaces ++ text) = text := by
        rw [← passOver_strip, stripped blanks heading, heading.solid.passOver (by decide)]
      apply alikeReads_of_alike
      rw [found _ _ _ (by rw [passed blanks heading, list]),
        found _ _ _ (by rw [passed otherBlanks other, otherList])]
      obtain ⟨before, clause, otherClause, later, rfl, rfl, alike⟩ := alike
      exact ⟨_, ending, _, otherEnding, rfl, rfl, ⟨earlier ++ before, clause, otherClause, later,
        by simp, by simp, alike⟩, endings⟩

end Grammar

open Grammar Rule

/-- Merging does not tell alike lists of clauses apart. -/
theorem mergeActions_of_alike {found other : List Clause} (alike : AlikeLists found other) :
    mergeActions (found.map Clause.rawAction) = mergeActions (other.map Clause.rawAction) := by
  obtain ⟨earlier, _, _, later, rfl, rfl, trigger, phrase, other, more, rfl, rfl, same⟩ := alike
  obtain rfl | ⟨text, otherText, rfl, rfl⟩ := same
  · rfl
  · -- Both gain a command without meaning over the clauses without their first command.
    have gains (text : String) : Gains (some (Command.unrecognized text))
        (earlier.map Clause.rawAction ++ ⟨trigger, more.map Phrase.command?⟩ ::
          later.map Clause.rawAction)
        ((earlier ++ ⟨trigger, .unrecognized text :: more⟩ :: later).map Clause.rawAction) := by
      refine ⟨earlier.map Clause.rawAction, trigger, [], more.map Phrase.command?,
        later.map Clause.rawAction, rfl, ?_⟩
      rw [List.map_append]
      rfl
    rw [mergeActions_of_gains rfl (gains text), mergeActions_of_gains rfl (gains otherText)]

/-- Sources whose cleaned texts are read alike stand for the same actions and are accepted alike. -/
theorem parse_of_alikeReads {first second : String}
    (alike : AlikeReads (clean first.toList) (clean second.toList)) :
    parse first = parse second ∧ (tryParse first).isOk = (tryParse second).isOk := by
  have rejected {source : String} (never : ∀ found, read (clean source.toList) ≠ .ok found) :
      (tryParse source).isOk = false := by
    rw [isOk_tryParse, Bool.eq_false_iff]
    intro accepted
    obtain ⟨found, result⟩ := isOk_parseRaw_iff.mp accepted
    exact never found result
  obtain ⟨neverFirst, neverSecond⟩ | ⟨found, other, result, otherResult, alike⟩ := alike
  · rw [parse_of_rejected (rejected neverFirst), parse_of_rejected (rejected neverSecond),
      rejected neverFirst, rejected neverSecond]
    exact ⟨rfl, rfl⟩
  · have raw := parseRaw_eq_ok_iff.mpr ⟨found, result, rfl⟩
    have otherRaw := parseRaw_eq_ok_iff.mpr ⟨other, otherResult, rfl⟩
    rw [parse_eq, parse_eq, isOk_tryParse, isOk_tryParse, raw, otherRaw]
    exact ⟨mergeActions_of_alike alike, rfl⟩

/-- Cleaning keeps the places where a clause may begin. -/
theorem opens_clean {front : List Char} (opens : Opens front) : Opens (clean front) := by
  obtain rfl | ⟨unquoted, semicolon⟩ := opens
  · exact .inl rfl
  · obtain ⟨before, rfl⟩ := List.getLast?_eq_some_iff.mp semicolon
    have last : clean [';'] = [';'] := rfl
    refine .inr ⟨fun c member => unquoted c (List.mem_of_mem_filter member), ?_⟩
    rw [clean_append, last, List.getLast?_concat]

/-- Spaces are not removed before reading. -/
theorem clean_of_blank {text : List Char} (spaces : blank text = true) : clean text = text := by
  have solid : ∀ c, isStray c = true → isSpace c = false := by
    intro c stray
    rw [isStray, Bool.or_eq_true, decide_eq_true_eq, decide_eq_true_eq] at stray
    obtain rfl | rfl := stray <;> decide
  rw [blank, List.all_eq_true] at spaces
  refine clean_of_forall fun c member => Bool.eq_false_iff.mpr fun stray => ?_
  have space := spaces c member
  rw [solid c stray] at space
  cases space

/-- The spelling of a word of letters is clean. -/
theorem clean_of_same {word spelt : List Char} (letters : ∀ c ∈ word, c.toLower.isAlpha = true)
    (same : spelt.map Char.toLower = word.map Char.toLower) : clean spelt = spelt :=
  clean_of_forall fun c member => isStray_of_isAlpha (isAlpha_of_same letters same c member)

/-- Where a clause may begin, it does not matter in which ASCII case its trigger and the word of its
first command are spelt, nor which spaces stand before, between and after them, whatever comes
next. -/
theorem parse_respelt {before rest spelt word w₀ w₁ w₂ : String} {trigger : Trigger}
    {kind : CommandKind} (opens : Opens before.toList) (known : kind ∈ CommandKind.recognized)
    (sameTrigger : Text.sameFolded trigger.word spelt = true)
    (sameWord : Text.sameFolded kind.word word = true) (blank₀ : blank w₀.toList = true)
    (blank₁ : blank w₁.toList = true) (blank₂ : blank w₂.toList = true) :
    parse (before ++ w₀ ++ spelt ++ w₁ ++ word ++ w₂ ++ rest) =
        parse (before ++ trigger.word ++ kind.word ++ rest) ∧
      (tryParse (before ++ w₀ ++ spelt ++ w₁ ++ word ++ w₂ ++ rest)).isOk =
        (tryParse (before ++ trigger.word ++ kind.word ++ rest)).isOk := by
  rw [Text.sameFolded_iff] at sameTrigger sameWord
  have cleanSpelt := clean_of_same (isAlpha_trigger trigger) sameTrigger.symm
  have cleanWord := clean_of_same (isAlpha_kind kind) sameWord.symm
  have cleanTrigger : clean trigger.word.toList = trigger.word.toList :=
    clean_of_same (isAlpha_trigger trigger) rfl
  have cleanKind : clean kind.word.toList = kind.word.toList :=
    clean_of_same (isAlpha_kind kind) rfl
  have heading : Heading trigger kind
      (spelt.toList ++ (w₁.toList ++ (word.toList ++ (w₂.toList ++ clean rest.toList))))
      (w₂.toList ++ clean rest.toList) :=
    ⟨spelt.toList, w₁.toList, word.toList, rfl, blank₁, sameTrigger.symm, sameWord.symm⟩
  have plain : Heading trigger kind
      (trigger.word.toList ++ ([] ++ (kind.word.toList ++ clean rest.toList)))
      (clean rest.toList) :=
    ⟨trigger.word.toList, [], kind.word.toList, rfl, rfl, rfl, rfl⟩
  have alike := heading.alike_read known plain (strip_append_of_blank blank₂ _)
    (opens_clean opens) blank₀ blank_nil
  apply parse_of_alikeReads
  simp only [String.toList_append, clean_append, cleanSpelt, cleanWord, cleanTrigger, cleanKind,
    clean_of_blank blank₀, clean_of_blank blank₁, clean_of_blank blank₂, List.append_assoc]
  exact alike

/-- A word for warping without a location, behind another clause and before a quote that is never
closed. -/
theorem parse_respelt_warp :
    parse ("bump examine;" ++ " \t" ++ "CrEaTe" ++ "" ++ "wARP" ++ "\n" ++ "here, say \x22hi;") =
        parse ("bump examine;" ++ Trigger.create.word ++ CommandKind.warp.word ++
          "here, say \x22hi;") ∧
      (tryParse ("bump examine;" ++ " \t" ++ "CrEaTe" ++ "" ++ "wARP" ++ "\n" ++
          "here, say \x22hi;")).isOk =
        (tryParse ("bump examine;" ++ Trigger.create.word ++ CommandKind.warp.word ++
          "here, say \x22hi;")).isOk := by
  have opens : Opens "bump examine;".toList := .inr ⟨by decide, by decide⟩
  have known : CommandKind.warp ∈ CommandKind.recognized := by decide
  exact parse_respelt opens known (by decide) (by decide) (by decide) (by decide) (by decide)

end ActionString
