import ActionString.Proofs.Canonical
import ActionString.Proofs.Crossing
import ActionString.Proofs.MergedActions
import ActionString.Proofs.Pieces

/-!
# The first command of a text

A text that begins with a trigger is read as its first command and as what the text goes on with
after it. So two texts with the same trigger whose first commands leave the same text are read
alike, but for these commands.
-/

namespace ActionString

open Grammar Rule

namespace Grammar

/-- A trigger is read with its first command, and then with the commands and the clauses that come
after it. -/
theorem read_head_iff {kind : Trigger} {middle rest : List Char} {value : Phrase}
    (first : (phrase (strip middle)).result = some (value, rest)) {found : List Clause} :
    read (kind.word.toList ++ middle) = .ok found ↔
      ∃ more last, (onward rest).result = some (more, last) ∧ Closes last ∧
        found = ⟨kind, value :: more.1⟩ :: more.2 := by
  have begun : (someClauses (kind.word.toList ++ middle)).result =
      (onward rest).result.map fun more => (⟨kind, value :: more.1.1⟩ :: more.1.2, more.2) := by
    rw [someClauses, onward, result_bind, result_bind,
      result_clause_of_some (result_trigger_word kind middle) first]
    cases (morePhrases rest).result with
    | none => rfl
    | some pair => simp [result_map, Option.map_map, Function.comp_def]
  obtain ⟨more, last, result⟩ := exists_result_onward rest
  have list : (separated ";" clause (kind.word.toList ++ middle)).result =
      some (⟨kind, value :: more.1⟩ :: more.2, last) := by
    rw [result_separated_eq, ((solid_trigger rfl).append middle).strip, begun, result]
    rfl
  rw [read_eq_ok_iff, list, result]
  constructor
  · rintro ⟨rest, same, closes⟩
    cases same
    exact ⟨more, last, rfl, closes, rfl⟩
  · rintro ⟨others, rest, same, closes, rfl⟩
    cases same
    exact ⟨last, rfl, closes⟩

end Grammar

/-- A text goes on with commands of a clause that has begun, and with actions after it, up to its
end. -/
def Continues (text : List Char) (commands : List (Option Command)) (actions : List RawAction) :
    Prop :=
  ∃ more last, (onward text).result = some (more, last) ∧ Closes last ∧
    commands = more.1.map Phrase.command? ∧ actions = more.2.map Clause.rawAction

/-- The end of a text goes on with nothing. -/
theorem continues_nil : Continues [] [] [] := by
  have onward : (onward []).result = some (([], []), []) := by
    rw [Grammar.onward, result_bind_of_some (result_morePhrases_of_ne (by decide)), result_map,
      result_followers_of_ne rfl clause (by decide)]
    rfl
  exact ⟨([], []), [], onward, .inl rfl, rfl, rfl⟩

/-- A source that begins with a trigger stands for its first command and for what the text goes on
with after it. -/
theorem parseRaw_head_iff {source : String} {kind : Trigger} {middle rest : List Char}
    {value : Phrase} (text : clean source.toList = kind.word.toList ++ middle)
    (first : (phrase (strip middle)).result = some (value, rest)) {actions : List RawAction} :
    parseRaw source = .ok actions ↔
      ∃ commands others, Continues rest commands others ∧
        actions = ⟨kind, value.command? :: commands⟩ :: others := by
  rw [parseRaw_eq_ok_iff, text]
  constructor
  · rintro ⟨found, accepted, rfl⟩
    obtain ⟨more, last, result, closes, rfl⟩ := (read_head_iff first).mp accepted
    exact ⟨_, _, ⟨more, last, result, closes, rfl, rfl⟩, rfl⟩
  · rintro ⟨commands, others, ⟨more, last, result, closes, rfl, rfl⟩, rfl⟩
    exact ⟨_, (read_head_iff first).mpr ⟨more, last, result, closes, rfl⟩, rfl⟩

/-- A source that is a trigger with one command stands for that command. -/
theorem parseRaw_single {source : String} {kind : Trigger} {middle : List Char} {value : Phrase}
    (text : clean source.toList = kind.word.toList ++ middle)
    (only : (phrase (strip middle)).result = some (value, [])) :
    parseRaw source = .ok [⟨kind, [value.command?]⟩] :=
  (parseRaw_head_iff text only).mpr ⟨[], [], continues_nil, rfl⟩

/-- Commands that are spelt after commas go on a text up to its end. -/
theorem continues_spells {items : List (List Char × Phrase)}
    (each : ∀ item ∈ items, Spells item.1 item.2) :
    Continues ((items.map Prod.fst).flatMap (", ".toList ++ ·))
      (items.map fun item => item.2.command?) [] := by
  have more := result_morePhrases_spells each Stops.at_nil
  rw [List.append_nil] at more
  have onward : (onward ((items.map Prod.fst).flatMap (", ".toList ++ ·))).result =
      some ((items.map Prod.snd, []), []) := by
    rw [Grammar.onward, result_bind_of_some more, result_map,
      result_followers_of_ne rfl clause (by decide)]
    rfl
  exact ⟨_, [], onward, .inl rfl, by rw [List.map_map]; rfl, rfl⟩

/-- A source for the creation of an object stands for the commands that are spelt in it. -/
theorem parseRaw_create {first : String × Phrase} {others : List (String × Phrase)}
    (spelt : ∀ item ∈ first :: others, Spells item.1.toList item.2)
    (tidy : ∀ item ∈ first :: others, Tidy item.1.toList) :
    parseRaw ("create " ++ ", ".intercalate ((first :: others).map Prod.fst)) =
      .ok [⟨.create, (first :: others).map fun item => item.2.command?⟩] := by
  let chars (item : String × Phrase) : List Char × Phrase := (item.1.toList, item.2)
  have joined : (", ".intercalate ((first :: others).map Prod.fst)).toList =
      first.1.toList ++ ((others.map chars).map Prod.fst).flatMap (", ".toList ++ ·) := by
    rw [List.map_cons, Item.toList_intercalate_cons, List.map_map, List.flatMap_map,
      List.flatMap_map]
    rfl
  have comma : Tidy ", ".toList := by decide
  have text := clean_create (tidy_intercalate comma (List.forall_mem_map.mpr tidy))
  rw [joined] at text
  rw [List.forall_mem_cons] at spelt
  have more : ∀ item ∈ others.map chars, Spells item.1 item.2 := List.forall_mem_map.mpr spelt.2
  have ends := at_flatMap_comma ((others.map chars).map Prod.fst) Stops.at_nil
  rw [List.append_nil] at ends
  have found := spelt.1.result ends
  rw [← (spelt.1.solid.append _).strip, ← strip_cons_of_isSpace (c := ' ') (by decide)] at found
  refine (parseRaw_head_iff text found).mpr ⟨_, [], continues_spells more, ?_⟩
  rw [List.map_map]
  rfl

/-- A source for the creation of an object with one command stands for the command that is spelt in
it. -/
theorem parseRaw_create_single {text : String} {value : Phrase} (spelt : Spells text.toList value)
    (tidy : Tidy text.toList) :
    parseRaw ("create " ++ text) = .ok [⟨.create, [value.command?]⟩] := by
  have read := @parseRaw_create (text, value) [] (List.forall_mem_singleton.mpr spelt)
    (List.forall_mem_singleton.mpr tidy)
  rwa [List.map_singleton, String.intercalate_singleton, List.map_singleton] at read

/-- A source with one command word and words that are read as its arguments stands for the command
of these arguments. -/
theorem parseRaw_create_words {kind : CommandKind} (known : kind ∈ CommandKind.recognized)
    {rule : Rule Argument} (shape : phraseOf kind = withArguments kind rule)
    (blind : Blind (· ≠ '\x22') .both rule) (missed : (rule []).result = none) {text : String}
    {items : List (List Char × Argument)}
    (printed : text.toList = kind.word.toList ++ items.flatMap fun item => ' ' :: item.1)
    (each : ∀ item ∈ items, Reads rule item.1 item.2) (tidy : ∀ item ∈ items, Tidy item.1) :
    parseRaw ("create " ++ text) =
      .ok [⟨.create, [(Phrase.arguments kind (items.map Prod.snd)).command?]⟩] := by
  have spelt := Spells.of_words known shape blind missed each
  have clean := tidy_words kind tidy
  rw [← printed] at spelt clean
  exact parseRaw_create_single spelt clean

/-- A source that is read as one clause stands for the commands of the clause, merged. -/
theorem parse_of_parseRaw {source : String} {kind : Trigger} {commands : List (Option Command)}
    (read : parseRaw source = .ok [⟨kind, commands⟩]) :
    parse source =
      if mergeCommands commands = [] then ∅ else ⟨[(kind, mergeCommands commands)]⟩ := by
  rw [parse_eq, read]
  exact mergeActions_singleton ⟨kind, commands⟩

/-- A source that is read as one command stands for this command alone if it is kept. -/
theorem parse_eq_single_iff {source : String} {kind : Trigger} {found : Option Command}
    (read : parseRaw source = .ok [⟨kind, [found]⟩]) {command : Command} :
    parse source = ⟨[(kind, [command])]⟩ ↔ found = some command ∧ command.survives = true := by
  rw [parse_of_parseRaw read, mergeCommands_singleton]
  cases found with
  | none =>
    refine ⟨fun same => ?_, fun same => nomatch same.1⟩
    cases same
  | some found =>
    rw [Option.toList_some, Option.some.injEq]
    cases survives : found.survives with
    | true =>
      rw [List.filter_cons_of_pos survives]
      constructor
      · intro same
        cases same
        exact ⟨rfl, survives⟩
      · rintro ⟨rfl, -⟩
        rfl
    | false =>
      rw [List.filter_cons_of_neg (by rw [survives]; decide)]
      constructor
      · intro same
        cases same
      · rintro ⟨rfl, kept⟩
        rw [survives] at kept
        cases kept

/-- A source for the creation of an object with one command stands for this command alone if it is
kept. -/
theorem parse_create_spells {text : String} {value : Phrase} (spelt : Spells text.toList value)
    (tidy : Tidy text.toList) {command : Command} (stands : value.command? = some command)
    (kept : command.survives = true) :
    parse ("create " ++ text) = ⟨[(.create, [command])]⟩ :=
  (parse_eq_single_iff (parseRaw_create_single spelt tidy)).mpr ⟨stands, kept⟩

end ActionString
