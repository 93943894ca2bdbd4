import ActionString.Proofs.Crossing

/-!
# Unrecognised text between commands

Unrecognised text between two commas adds one command without meaning and changes nothing else: a
text with it is read when the text without it is, and merging drops the command that it adds.
-/

namespace ActionString

namespace Grammar

open Rule

/-- Spaces between two commas are passed over. -/
theorem result_onward_of_blank {junk : List Char} (spaces : blank junk = true)
    (more : List Char) :
    (onward (',' :: junk ++ ',' :: more)).result = (onward (',' :: more)).result := by
  have ended : passOver ',' (',' :: junk) = [] := by
    rw [passOver_cons, ← passOver_strip, strip_eq_nil_iff.mpr spaces]
    rfl
  rw [onward, result_bind, result_bind,
    result_morePhrases_comma rfl rfl (passOver_append_of_nil ended _)]

/-- Unrecognised text between two commas is one more command. -/
theorem result_onward_of_foreign {junk : List Char} (solid : blank junk = false)
    (plain : ∀ c ∈ junk, c ≠ ',' ∧ c ≠ ';')
    (foreign : ∀ kind ∈ CommandKind.recognized, ¬Begins kind.word (strip junk))
    (more : List Char) :
    (onward (',' :: junk ++ ',' :: more)).result = (onward (',' :: more)).result.map fun found =>
      ((.unrecognized (String.ofList (strip junk)) :: found.1.1, found.1.2), found.2) := by
  obtain ⟨c, rest, stripped, solidFirst⟩ := exists_strip_eq_cons solid
  have within := strip_suffix junk
  have plainStrip : ∀ c ∈ strip junk, (c ≠ ';' && c ≠ ',') = true := fun c member => by
    simp [plain c (within.subset member)]
  have passed : passOver ',' (',' :: junk) = strip junk := by
    have member : c ∈ junk := within.subset (by rw [stripped]; exact .head _)
    rw [passOver_cons, ← passOver_strip, stripped, passOver_of_solid solidFirst (plain c member).1]
  have foreignMore : ∀ kind ∈ CommandKind.recognized,
      ¬Begins kind.word (strip junk ++ ',' :: more) := by
    intro kind known
    have spare : ∀ w ∈ kind.word.toList, ∀ c ∈ Stops.both.chars, c.toLower ≠ w.toLower := by
      cases kind <;> decide
    rw [← stripFolded_eq_none_iff, Stops.stripFolded_append spare (at_comma more),
      stripFolded_eq_none_iff.mpr (foreign kind known)]
    rfl
  have first : (phrase (passOver ',' (',' :: junk ++ ',' :: more))).result =
      some (.unrecognized (String.ofList (strip junk)), ',' :: more) := by
    rw [passOver_append_of_ne (by rw [passed, stripped]; exact List.cons_ne_nil _ _), passed,
      result_phrase_of_foreign foreignMore, result_unrecognized,
      List.takeWhile_append_of_pos plainStrip, List.dropWhile_append_of_pos plainStrip]
    simp
  rw [onward, result_bind, result_bind, result_morePhrases_of_eq rfl first]
  cases (morePhrases (',' :: more)).result with
  | none => rfl
  | some pair => simp [result_map, Option.map_map, Function.comp_def]

end Grammar

open Grammar Rule

/-- One list of actions is another with one more command in one of its actions. -/
def Gains (command : Option Command) (actions others : List RawAction) : Prop :=
  ∃ earlier trigger before after later,
    actions = earlier ++ ⟨trigger, before ++ after⟩ :: later ∧
      others = earlier ++ ⟨trigger, before ++ command :: after⟩ :: later

/-- What is read between two commas adds its commands to the clause of the commas. -/
theorem gains_joined (state : List Clause × Trigger × List Phrase) (phrase : Phrase)
    (more : List Phrase × List Clause) :
    Gains phrase.command? ((joined state more).map Clause.rawAction)
      ((joined state (phrase :: more.1, more.2)).map Clause.rawAction) := by
  refine ⟨state.1.map Clause.rawAction, state.2.1, state.2.2.map Phrase.command?,
    more.1.map Phrase.command?, more.2.map Clause.rawAction, ?_, ?_⟩
  · simp [joined, Clause.rawAction]
  · simp [joined, Clause.rawAction]

/-- With text between two commas that begins with no command word, a text is read when it is read
without it; the actions are the same, with one more command if the text is not blank. -/
theorem read_isolated {front junk : List Char} (unquoted : ∀ c ∈ front, c ≠ '\x22')
    (plain : ∀ c ∈ junk, c ≠ ',' ∧ c ≠ ';')
    (foreign : ∀ kind ∈ CommandKind.recognized, ¬Begins kind.word (strip junk))
    (more : List Char) :
    (∀ others, read (front ++ ',' :: (junk ++ ',' :: more)) = .ok others →
        ∃ found, read (front ++ ',' :: more) = .ok found) ∧
      ∀ found, read (front ++ ',' :: more) = .ok found →
        ∃ others, read (front ++ ',' :: (junk ++ ',' :: more)) = .ok others ∧
          if blank junk = true then others = found
          else Gains (some (Command.unrecognized (String.ofList (strip junk))))
            (found.map Clause.rawAction) (others.map Clause.rawAction) := by
  obtain rejected | ⟨state, accepted⟩ := read_comma front unquoted
  · exact ⟨fun others same => absurd same (rejected _ _), fun found same => absurd same (rejected _ _)⟩
  by_cases spaces : blank junk = true
  · have same := result_onward_of_blank spaces more
    have equal (found : List Clause) : read (front ++ ',' :: (junk ++ ',' :: more)) = .ok found ↔
        read (front ++ ',' :: more) = .ok found := by
      rw [accepted, accepted, ← same]
      rfl
    refine ⟨fun others same => ⟨others, (equal others).mp same⟩, fun found same => ?_⟩
    exact ⟨found, (equal found).mpr same, by rw [if_pos spaces]⟩
  · have gain := result_onward_of_foreign (by simpa using spaces) plain foreign more
    rw [List.cons_append] at gain
    constructor
    · intro others same
      obtain ⟨value, rest, result, closes, -⟩ := (accepted _ _).mp same
      rw [gain, Option.map_eq_some_iff] at result
      obtain ⟨⟨inner, last⟩, result, equal⟩ := result
      cases equal
      exact ⟨_, (accepted _ _).mpr ⟨inner, _, result, closes, rfl⟩⟩
    · intro found same
      obtain ⟨value, rest, result, closes, rfl⟩ := (accepted _ _).mp same
      refine ⟨_, (accepted _ _).mpr ⟨_, rest, by rw [gain, result]; rfl, closes, rfl⟩, ?_⟩
      rw [if_neg spaces]
      exact gains_joined state (.unrecognized (String.ofList (strip junk))) value

/-- Merging drops a command that does nothing. -/
theorem mergeCommands_cons {command : Command} (idle : command.survives = false)
    (before after : List (Option Command)) :
    mergeCommands (before ++ some command :: after) = mergeCommands (before ++ after) := by
  simp [mergeCommands, mergeInto, idle]

/-- Merging does not see a command that does nothing. -/
theorem mergeActions_of_gains {command : Command} (idle : command.survives = false)
    {actions others : List RawAction} (gains : Gains (some command) actions others) :
    mergeActions others = mergeActions actions := by
  obtain ⟨earlier, trigger, before, after, later, rfl, rfl⟩ := gains
  have step (merged : ActionMap) : mergeAction merged ⟨trigger, before ++ some command :: after⟩ =
      mergeAction merged ⟨trigger, before ++ after⟩ := by
    simp only [mergeAction, mergeCommands_cons idle]
  rw [mergeActions, mergeActions, List.foldl_append, List.foldl_append, List.foldl_cons,
    List.foldl_cons, step]

/-- A source without text between two commas that begins with no command word is accepted when the
source with it is. Both have the same actions, but for one unrecognised command with the text when
it is not blank, and they are merged into the same map. -/
theorem parseRaw_isolated {before junk after : String}
    (tidy : ∀ c ∈ (before ++ junk ++ after).toList, isStray c = false)
    (unquoted : ∀ c ∈ before.toList, c ≠ '\x22')
    (plain : ∀ c ∈ junk.toList, c ≠ ',' ∧ c ≠ ';')
    (foreign : ∀ kind ∈ CommandKind.recognized, ¬Begins kind.word (strip junk.toList)) :
    (parseRaw (before ++ "," ++ junk ++ "," ++ after)).isOk =
        (parseRaw (before ++ "," ++ after)).isOk ∧
      (∀ actions, parseRaw (before ++ "," ++ after) = .ok actions →
        ∃ others, parseRaw (before ++ "," ++ junk ++ "," ++ after) = .ok others ∧
          if blank junk.toList = true then others = actions
          else Gains (some (Command.unrecognized (String.ofList (strip junk.toList))))
            actions others) ∧
      parse (before ++ "," ++ junk ++ "," ++ after) = parse (before ++ "," ++ after) := by
  obtain ⟨back, forth⟩ := read_isolated unquoted plain foreign after.toList
  have tidyPart (part : List Char) (within : part ⊆ (before ++ junk ++ after).toList) :
      clean part = part := clean_of_forall fun c member => tidy c (within member)
  have cleanBefore := tidyPart before.toList (by simp)
  have cleanJunk := tidyPart junk.toList (by simp)
  have cleanAfter := tidyPart after.toList (by simp)
  have comma : clean ",".toList = [','] := rfl
  have textWith : clean (before ++ "," ++ junk ++ "," ++ after).toList =
      before.toList ++ ',' :: (junk.toList ++ ',' :: after.toList) := by
    simp only [String.toList_append, clean_append, cleanBefore, cleanJunk, cleanAfter, comma,
      List.append_assoc, List.singleton_append]
  have textWithout : clean (before ++ "," ++ after).toList =
      before.toList ++ ',' :: after.toList := by
    simp only [String.toList_append, clean_append, cleanBefore, cleanAfter, comma,
      List.append_assoc, List.singleton_append]
  have accepted : ∀ actions, parseRaw (before ++ "," ++ after) = .ok actions →
      ∃ others, parseRaw (before ++ "," ++ junk ++ "," ++ after) = .ok others ∧
        if blank junk.toList = true then others = actions
        else Gains (some (Command.unrecognized (String.ofList (strip junk.toList))))
          actions others := by
    intro actions result
    obtain ⟨found, read, rfl⟩ := parseRaw_eq_ok_iff.mp result
    rw [textWithout] at read
    obtain ⟨others, readOthers, gain⟩ := forth found read
    refine ⟨_, parseRaw_eq_ok_iff.mpr ⟨others, by rw [textWith, readOthers], rfl⟩, ?_⟩
    split
    · rename_i spaces
      rw [if_pos spaces] at gain
      rw [gain]
    · rename_i solid
      rwa [if_neg solid] at gain
  cases without : parseRaw (before ++ "," ++ after) with
  | ok actions =>
    obtain ⟨others, result, gain⟩ := accepted actions without
    refine ⟨by rw [result]; rfl, fun other same => ?_, ?_⟩
    · cases same
      exact ⟨others, result, gain⟩
    · rw [parse_eq, parse_eq, result, without]
      split at gain
      · rw [gain]
      · exact mergeActions_of_gains rfl gain
  | error diagnostic =>
    cases result : parseRaw (before ++ "," ++ junk ++ "," ++ after) with
    | ok others =>
      obtain ⟨found, read, -⟩ := parseRaw_eq_ok_iff.mp result
      rw [textWith] at read
      obtain ⟨other, readOther⟩ := back found read
      have contrary := parseRaw_eq_ok_iff.mpr ⟨other, by rw [textWithout, readOther], rfl⟩
      rw [without] at contrary
      cases contrary
    | error reason =>
      refine ⟨rfl, fun other same => ?_, ?_⟩
      · cases same
      · rw [parse_eq, parse_eq, result, without]

/-- Unrecognised text between a command and a quote that is never closed. -/
theorem parseRaw_isolated_junk :
    (parseRaw ("create examine" ++ "," ++ " junk " ++ "," ++ " say \x22hi;")).isOk =
        (parseRaw ("create examine" ++ "," ++ " say \x22hi;")).isOk ∧
      parse ("create examine" ++ "," ++ " junk " ++ "," ++ " say \x22hi;") =
        parse ("create examine" ++ "," ++ " say \x22hi;") := by
  have foreign : ∀ kind ∈ CommandKind.recognized, ¬Begins kind.word (strip " junk ".toList) := by
    have missed : ∀ kind ∈ CommandKind.recognized,
        Text.stripFolded kind.word.toList (strip " junk ".toList) = none := by decide +kernel
    exact fun kind known => stripFolded_eq_none_iff.mp (missed kind known)
  have tidy : ∀ c ∈ ("create examine" ++ " junk " ++ " say \x22hi;").toList, isStray c = false := by
    decide
  have unquoted : ∀ c ∈ "create examine".toList, c ≠ '\x22' := by decide
  have plain : ∀ c ∈ " junk ".toList, c ≠ ',' ∧ c ≠ ';' := by decide
  have law := parseRaw_isolated tidy unquoted plain foreign
  exact ⟨law.1, law.2.2⟩

end ActionString
