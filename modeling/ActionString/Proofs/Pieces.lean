import ActionString.Proofs.Crossing
import ActionString.Proofs.Words
import Mathlib.Data.List.Forall2

/-!
# Commands between commas

Without quotes and semicolons, the commands of a trigger are the pieces of its text between commas.
Each piece that is not blank must be a command by itself. Blank pieces between two commands do not
matter, but a blank piece at the beginning or at the end is a command without meaning.
-/

namespace ActionString

namespace Grammar

open Rule

/-- A rule reads a text up to spaces. -/
def ReadsAll {α : Type} (rule : Rule α) (text : List Char) (value : α) : Prop :=
  ∃ rest, (rule text).result = some (value, rest) ∧ blank rest = true

/-- A piece is a command when one is read from it, up to spaces. -/
def IsCommand (piece : List Char) (found : Phrase) : Prop := ReadsAll phrase (strip piece) found

/-- Where nothing is written, a command without meaning is read. -/
theorem isCommand_iff_of_blank {piece : List Char} (spaces : blank piece = true) {found : Phrase} :
    IsCommand piece found ↔ found = .unrecognized "" := by
  have nothing : (phrase []).result = some (.unrecognized "", []) := by
    have foreign : ∀ kind ∈ CommandKind.recognized, ¬Begins kind.word [] := by
      intro kind known
      rw [← stripFolded_eq_none_iff]
      cases kind <;> rfl
    rw [result_phrase_of_foreign foreign, result_unrecognized]
    rfl
  rw [IsCommand, ReadsAll, strip_eq_nil_iff.mpr spaces, nothing]
  constructor
  · rintro ⟨rest, same, -⟩
    cases same
    rfl
  · rintro rfl
    exact ⟨[], rfl, rfl⟩

/-- The command without meaning that is read after a last comma. -/
def phantom (pieces : List (List Char)) : List Phrase :=
  if pieces.getLast?.any blank then [.unrecognized ""] else []

/-- The commands of pieces after a first one: those of the pieces that are not blank, and one
without meaning if the last is blank. -/
def AreCommands (pieces : List (List Char)) (found : List Phrase) : Prop :=
  ∃ values, List.Forall₂ IsCommand (pieces.filter fun piece => !blank piece) values ∧
    found = values ++ phantom pieces

/-- Without pieces there are no commands. -/
theorem areCommands_nil {found : List Phrase} : AreCommands [] found ↔ found = [] := by
  constructor
  · rintro ⟨values, each, rfl⟩
    rw [List.forall₂_nil_left_iff.mp each]
    rfl
  · rintro rfl
    exact ⟨[], .nil, rfl⟩

/-- The last piece is a command, blank or not. -/
theorem areCommands_singleton {piece : List Char} {found : List Phrase} :
    AreCommands [piece] found ↔ ∃ value, IsCommand piece value ∧ found = [value] := by
  by_cases spaces : blank piece = true
  · simp [AreCommands, phantom, spaces, isCommand_iff_of_blank spaces]
  · rw [Bool.not_eq_true] at spaces
    simp [AreCommands, phantom, spaces, List.forall₂_cons_left_iff]

/-- A blank piece before others does not matter. -/
theorem areCommands_cons_of_blank {piece : List Char} (spaces : blank piece = true)
    {pieces : List (List Char)} (others : pieces ≠ []) {found : List Phrase} :
    AreCommands (piece :: pieces) found ↔ AreCommands pieces found := by
  obtain ⟨next, more, rfl⟩ := List.exists_cons_of_ne_nil others
  rw [AreCommands, AreCommands, phantom, phantom, List.getLast?_cons_cons,
    List.filter_cons_of_neg (by simp [spaces])]

/-- A piece that is not blank comes before the commands of the others. -/
theorem areCommands_cons_of_not_blank {piece : List Char} (solid : blank piece = false)
    {pieces : List (List Char)} (others : pieces ≠ []) {found : List Phrase} :
    AreCommands (piece :: pieces) found ↔
      ∃ value more, IsCommand piece value ∧ AreCommands pieces more ∧ found = value :: more := by
  obtain ⟨next, rest, rfl⟩ := List.exists_cons_of_ne_nil others
  rw [AreCommands, phantom, List.getLast?_cons_cons, ← phantom,
    List.filter_cons_of_pos (by simp [solid])]
  constructor
  · rintro ⟨values, each, rfl⟩
    obtain ⟨value, more, command, commands, rfl⟩ := List.forall₂_cons_left_iff.mp each
    exact ⟨value, _, command, ⟨more, commands, rfl⟩, rfl⟩
  · rintro ⟨value, _, command, ⟨more, commands, rfl⟩, rfl⟩
    exact ⟨value :: more, .cons command commands, rfl⟩

/-- A command and the commands after it. -/
def somePhrases : Rule (List Phrase) :=
  phrase >>= fun first => (first :: ·) <$> morePhrases

instance : Forward somePhrases := by
  unfold somePhrases morePhrases
  infer_instance

/-- After a comma, commands are read from the text behind it. -/
theorem result_morePhrases_eq {text : List Char} (front : (strip text).head? = some ',') :
    (morePhrases text).result = (somePhrases (passOver ',' text)).result := by
  obtain ⟨value, rest, found⟩ := exists_result_phrase (passOver ',' text)
  rw [result_morePhrases_of_eq front found, somePhrases, result_bind_of_some found, result_map]

/-- A text without commas does not go on with one. -/
theorem head?_strip_ne_comma {text : List Char} (whole : ',' ∉ text) :
    (strip text).head? ≠ some ',' := fun same =>
  whole ((strip_suffix text).subset (List.mem_of_mem_head? same))

/-- Commands are read from a text without commas when it is a command. -/
theorem readsAll_somePhrases_last {piece : List Char} (whole : ',' ∉ piece)
    {found : List Phrase} :
    ReadsAll somePhrases (strip piece) found ↔ ∃ value, IsCommand piece value ∧ found = [value] := by
  obtain ⟨value, rest, first⟩ := exists_result_phrase (strip piece)
  have wholeRest : ',' ∉ rest := fun member =>
    whole ((strip_suffix piece).subset ((Forward.suffix first).subset member))
  have read : (somePhrases (strip piece)).result = some ([value], rest) := by
    rw [somePhrases, result_bind_of_some first, result_map,
      result_morePhrases_of_ne (head?_strip_ne_comma wholeRest)]
    rfl
  simp only [ReadsAll, IsCommand, read, first, Option.some.injEq, Prod.mk.injEq]
  constructor
  · rintro ⟨_, ⟨rfl, rfl⟩, ended⟩
    exact ⟨value, ⟨rest, ⟨rfl, rfl⟩, ended⟩, rfl⟩
  · rintro ⟨_, ⟨_, ⟨rfl, rfl⟩, ended⟩, rfl⟩
    exact ⟨rest, ⟨rfl, rfl⟩, ended⟩

/-- Commands are read up to a comma and beyond it when the text before the comma is a command. -/
theorem readsAll_somePhrases_more {piece : List Char} (whole : ',' ∉ piece)
    (unquoted : ∀ c ∈ piece, c ≠ '\x22') (text : List Char) {found : List Phrase} :
    ReadsAll somePhrases (strip piece ++ ',' :: text) found ↔
      ∃ value more, IsCommand piece value ∧ ReadsAll morePhrases (',' :: text) more ∧
        found = value :: more := by
  obtain ⟨value, rest, first⟩ := exists_result_phrase (strip piece)
  have within : rest ⊆ piece := ((Forward.suffix first).trans (strip_suffix piece)).subset
  have wholeRest : ',' ∉ rest := fun member => whole (within member)
  have calm : ∀ c ∈ strip piece, c ≠ '\x22' := fun c member =>
    unquoted c ((strip_suffix piece).subset member)
  have read : (somePhrases (strip piece ++ ',' :: text)).result =
      (morePhrases (rest ++ ',' :: text)).result.map fun more => (value :: more.1, more.2) := by
    rw [somePhrases, result_bind_of_some (result_phrase_append calm first text), result_map]
  have stripped : strip (rest ++ ',' :: text) = strip rest ++ ',' :: text :=
    Stops.strip_append (at_comma text)
  by_cases ended : blank rest = true
  · have ends := strip_eq_nil_iff.mpr ended
    have passed : passOver ',' rest = [] := by rw [← passOver_strip, ends]; rfl
    rw [result_morePhrases_comma (by rw [stripped, ends]; rfl) rfl
      (passOver_append_of_nil passed _)] at read
    simp only [ReadsAll, IsCommand, read, first, Option.map_eq_some_iff, Option.some.injEq,
      Prod.mk.injEq]
    constructor
    · rintro ⟨_, ⟨⟨more, last⟩, result, rfl, rfl⟩, closed⟩
      exact ⟨value, more, ⟨rest, ⟨rfl, rfl⟩, ended⟩, ⟨last, result, closed⟩, rfl⟩
    · rintro ⟨_, more, ⟨_, ⟨rfl, rfl⟩, -⟩, ⟨last, result, closed⟩, rfl⟩
      exact ⟨last, ⟨(more, last), result, rfl, rfl⟩, closed⟩
  · -- What is left of the piece stops the commands before the comma.
    rw [Bool.not_eq_true] at ended
    have other : (strip (rest ++ ',' :: text)).head? ≠ some ',' := by
      obtain ⟨c, after, start, -⟩ := exists_strip_eq_cons ended
      have same := head?_strip_ne_comma wholeRest
      rw [start] at same
      rwa [stripped, start]
    rw [result_morePhrases_of_ne other] at read
    constructor
    · rintro ⟨last, result, closed⟩
      rw [read] at result
      cases result
      rw [blank, List.all_append, Bool.and_eq_true] at closed
      rw [blank, closed.1] at ended
      cases ended
    · rintro ⟨_, more, ⟨last, result, closed⟩, -⟩
      rw [first] at result
      cases result
      rw [closed] at ended
      cases ended

/-- After a comma, the commands of the pieces are read. -/
theorem readsAll_morePhrases {text : List Char} {pieces : List (List Char)}
    (cut : Cut ',' text pieces) (unquoted : ∀ c ∈ text, c ≠ '\x22') {found : List Phrase} :
    ReadsAll morePhrases (',' :: text) found ↔ AreCommands pieces found := by
  have passed {piece : List Char} (whole : ',' ∉ piece) :
      passOver ',' (',' :: piece) = strip piece := by
    rw [passOver_cons, ← passOver_strip]
    cases start : strip piece with
    | nil => rfl
    | cons c rest =>
      refine passOver_of_solid (isSpace_of_strip start) (fun comma => ?_) rest
      exact head?_strip_ne_comma whole (by rw [start, comma]; rfl)
  -- The induction is on the pieces: a blank one is passed over with its comma, unless it is the
  -- last.
  induction cut generalizing found with
  | @last piece whole =>
    rw [ReadsAll, result_morePhrases_eq rfl, passed whole, areCommands_singleton]
    exact readsAll_somePhrases_last whole
  | @more piece text pieces whole others ih =>
    rw [List.forall_mem_append, List.forall_mem_cons] at unquoted
    have next (found : List Phrase) :
        ReadsAll morePhrases (',' :: text) found ↔ AreCommands pieces found := ih unquoted.2.2
    by_cases spaces : blank piece = true
    · have ended : passOver ',' (',' :: piece) = [] := by
        rw [passed whole, strip_eq_nil_iff.mpr spaces]
      rw [areCommands_cons_of_blank spaces others.ne_nil, ← next found, ReadsAll, ReadsAll,
        ← List.cons_append, result_morePhrases_comma rfl rfl (passOver_append_of_nil ended _)]
    · have solid : passOver ',' (',' :: piece) ≠ [] := by
        rwa [passed whole, Ne, strip_eq_nil_iff]
      rw [Bool.not_eq_true] at spaces
      rw [areCommands_cons_of_not_blank spaces others.ne_nil, ReadsAll, result_morePhrases_eq rfl,
        ← List.cons_append, passOver_append_of_ne solid, passed whole]
      refine (readsAll_somePhrases_more whole unquoted.1 text).trans ?_
      simp only [next]

/-- The commands of a text are those of its first piece and of the others. -/
theorem readsAll_somePhrases {text first : List Char} {others : List (List Char)}
    (cut : Cut ',' text (first :: others)) (unquoted : ∀ c ∈ text, c ≠ '\x22')
    {found : List Phrase} :
    ReadsAll somePhrases (strip text) found ↔
      ∃ value more, IsCommand first value ∧ AreCommands others more ∧ found = value :: more := by
  cases cut with
  | last whole =>
    rw [readsAll_somePhrases_last whole]
    simp [areCommands_nil]
  | @more _ text _ whole others =>
    rw [List.forall_mem_append, List.forall_mem_cons] at unquoted
    rw [Stops.strip_append (at_comma text), readsAll_somePhrases_more whole unquoted.1]
    simp only [readsAll_morePhrases others unquoted.2.2]

/-- The spelling of a trigger begins neither with a space nor with a separator. -/
theorem solid_trigger {kind : Trigger} {spelt : List Char}
    (same : spelt.map Char.toLower = kind.word.toList.map Char.toLower) : Solid spelt :=
  solid_of_same (by cases kind <;> decide) (isAlpha_trigger kind) same

/-- A trigger with a text without semicolons is one clause, with the commands of the text. -/
theorem read_trigger_iff {kind : Trigger} {spelt text : List Char}
    (same : spelt.map Char.toLower = kind.word.toList.map Char.toLower) (single : ';' ∉ text)
    {clauses : List Clause} :
    read (spelt ++ text) = .ok clauses ↔
      ∃ found, ReadsAll somePhrases (strip text) found ∧ clauses = [⟨kind, found⟩] := by
  obtain ⟨value, rest, first⟩ := exists_result_phrase (strip text)
  obtain ⟨more, last, others⟩ := exists_result_morePhrases rest
  have commands : (somePhrases (strip text)).result = some (value :: more, last) := by
    rw [somePhrases, result_bind_of_some first, result_map, others]
    rfl
  have found : (clause (strip (spelt ++ text))).result = some (⟨kind, value :: more⟩, last) := by
    rw [((solid_trigger same).append text).strip,
      result_clause_of_some (result_trigger_of_same same text) first, others]
    rfl
  have never : (strip last).head? ≠ some ';' := by
    intro front
    have within := (strip_suffix last).trans ((Forward.suffix commands).trans (strip_suffix text))
    exact single (within.subset (List.mem_of_mem_head? front))
  have list : (separated ";" clause (spelt ++ text)).result =
      some ([⟨kind, value :: more⟩], last) := by
    rw [result_separated_of_some found, result_followers_of_ne rfl clause never]
    rfl
  have closes : Closes last ↔ blank last = true := by
    refine or_iff_left ?_
    rintro ⟨after, stripped, -⟩
    exact never (by rw [stripped]; rfl)
  simp only [read_eq_ok_iff, ReadsAll, list, commands, Option.some.injEq, Prod.mk.injEq]
  constructor
  · rintro ⟨_, ⟨rfl, rfl⟩, closed⟩
    exact ⟨_, ⟨last, ⟨rfl, rfl⟩, closes.mp closed⟩, rfl⟩
  · rintro ⟨_, ⟨_, ⟨rfl, rfl⟩, closed⟩, rfl⟩
    exact ⟨last, ⟨rfl, rfl⟩, closes.mpr closed⟩

end Grammar

open Grammar Rule

/-- The pieces of a text between commas. -/
def pieces (text : String) : List (List Char) := text.toList.splitOn ','

/-- What is read of a trigger with a single piece. -/
def alone (word : String) (piece : List Char) : Except Diagnostic (List RawAction) :=
  parseRaw (word ++ " " ++ String.ofList piece)

/-- A word that is a trigger's in any ASCII case is spelt in the letters of the trigger. -/
theorem map_toLower_of_ofWord? {word : String} {kind : Trigger}
    (named : Trigger.ofWord? word = some kind) :
    word.toList.map Char.toLower = kind.word.toList.map Char.toLower := by
  rw [Trigger.ofWord?] at named
  have same := List.find?_some named
  exact (Text.sameFolded_iff.mp same).symm

/-- A trigger with a text is read as its commands. -/
theorem parseRaw_trigger_iff {word : String} {kind : Trigger} {source : String}
    (named : Trigger.ofWord? word = some kind) {text : List Char}
    (written : source.toList = word.toList ++ text)
    (plain : ∀ c ∈ text, c ≠ ';' ∧ isStray c = false) {actions : List RawAction} :
    parseRaw source = .ok actions ↔
      ∃ found, ReadsAll somePhrases (strip text) found ∧
        actions = [⟨kind, found.map Phrase.command?⟩] := by
  have same := map_toLower_of_ofWord? named
  have tidy : ∀ c ∈ word.toList, isStray c = false := fun c member =>
    isStray_of_isAlpha (isAlpha_of_same (isAlpha_trigger kind) same c member)
  have text : clean source.toList = word.toList ++ text := by
    rw [written, clean_of_forall]
    exact List.forall_mem_append.mpr ⟨tidy, fun c member => (plain c member).2⟩
  rw [parseRaw_eq_ok_iff, text]
  simp only [read_trigger_iff same fun member => (plain _ member).1 rfl]
  constructor
  · rintro ⟨_, ⟨found, commands, rfl⟩, rfl⟩
    exact ⟨found, commands, rfl⟩
  · rintro ⟨found, commands, rfl⟩
    exact ⟨_, ⟨found, commands, rfl⟩, rfl⟩

/-- A trigger with a single piece is read when the piece is a command. -/
theorem alone_eq_ok_iff {word : String} {kind : Trigger}
    (named : Trigger.ofWord? word = some kind) {piece : List Char}
    (plain : ∀ c ∈ piece, c ≠ ';' ∧ isStray c = false) (whole : ',' ∉ piece)
    {actions : List RawAction} :
    alone word piece = .ok actions ↔
      ∃ value, IsCommand piece value ∧ actions = [⟨kind, [value.command?]⟩] := by
  have written : (word ++ " " ++ String.ofList piece).toList = word.toList ++ ' ' :: piece := by
    simp
  have space : ∀ c ∈ ' ' :: piece, c ≠ ';' ∧ isStray c = false :=
    List.forall_mem_cons.mpr ⟨by decide, plain⟩
  rw [alone, parseRaw_trigger_iff named written space, strip_cons_of_isSpace (by decide)]
  simp only [readsAll_somePhrases_last whole]
  constructor
  · rintro ⟨_, ⟨value, command, rfl⟩, rfl⟩
    exact ⟨value, command, rfl⟩
  · rintro ⟨value, command, rfl⟩
    exact ⟨_, ⟨value, command, rfl⟩, rfl⟩

/-- A trigger with a single piece is accepted when the piece is a command. -/
theorem isOk_alone_iff {word : String} {kind : Trigger}
    (named : Trigger.ofWord? word = some kind) {piece : List Char}
    (plain : ∀ c ∈ piece, c ≠ ';' ∧ isStray c = false) (whole : ',' ∉ piece) :
    (alone word piece).isOk = true ↔ ∃ value, IsCommand piece value := by
  rw [isOk_iff]
  constructor
  · rintro ⟨actions, accepted⟩
    obtain ⟨value, command, -⟩ := (alone_eq_ok_iff named plain whole).mp accepted
    exact ⟨value, command⟩
  · rintro ⟨value, command⟩
    exact ⟨_, (alone_eq_ok_iff named plain whole).mpr ⟨value, command, rfl⟩⟩

/-- A trigger with a text is read as the commands of its pieces. -/
theorem parseRaw_cut_iff {word text : String} {kind : Trigger}
    (named : Trigger.ofWord? word = some kind)
    (plain : ∀ c ∈ text.toList, c ≠ '\x22' ∧ c ≠ ';' ∧ isStray c = false)
    {first : List Char} {others : List (List Char)} (cut : Cut ',' text.toList (first :: others))
    {actions : List RawAction} :
    parseRaw (word ++ text) = .ok actions ↔
      ∃ value more, IsCommand first value ∧ AreCommands others more ∧
        actions = [⟨kind, (value :: more).map Phrase.command?⟩] := by
  rw [parseRaw_trigger_iff named (String.toList_append ..) fun c member => (plain c member).2]
  simp only [readsAll_somePhrases cut fun c member => (plain c member).1]
  constructor
  · rintro ⟨_, ⟨value, more, command, commands, rfl⟩, rfl⟩
    exact ⟨value, more, command, commands, rfl⟩
  · rintro ⟨value, more, command, commands, rfl⟩
    exact ⟨_, ⟨value, more, command, commands, rfl⟩, rfl⟩

/-- Commands can be read from pieces when one can be read from each that is not blank. -/
theorem exists_areCommands_iff {others : List (List Char)} :
    (∃ found, AreCommands others found) ↔
      ∀ piece ∈ others, blank piece = false → ∃ value, IsCommand piece value := by
  have each : ∀ kept : List (List Char),
      (∃ values, List.Forall₂ IsCommand kept values) ↔
        ∀ piece ∈ kept, ∃ value, IsCommand piece value := by
    intro kept
    induction kept with
    | nil => simp
    | cons piece kept ih =>
      rw [List.forall_mem_cons, ← ih]
      constructor
      · rintro ⟨_, commands⟩
        cases commands with
        | cons first more => exact ⟨⟨_, first⟩, ⟨_, more⟩⟩
      · rintro ⟨⟨value, first⟩, values, more⟩
        exact ⟨value :: values, .cons first more⟩
  have kept := each (others.filter fun piece => !blank piece)
  simp only [List.mem_filter, Bool.not_eq_true', and_imp] at kept
  rw [← kept]
  constructor
  · rintro ⟨_, values, commands, -⟩
    exact ⟨values, commands⟩
  · rintro ⟨values, commands⟩
    exact ⟨_, values, commands, rfl⟩

/-- A trigger with a text without quotes, semicolons and stray controls is accepted when it is
accepted with the first piece of the text, and with each of the others that is not blank. It is
then one action: the command of the first piece, those of the others that are not blank, and one
without meaning if the last of the others is blank. The command of a blank first piece is without
meaning, too. -/
theorem parseRaw_iff_pieces {word text : String} {kind : Trigger}
    (named : Trigger.ofWord? word = some kind)
    (plain : ∀ c ∈ text.toList, c ≠ '\x22' ∧ c ≠ ';' ∧ isStray c = false) :
    ∃ first others, pieces text = first :: others ∧
      ((parseRaw (word ++ text)).isOk = true ↔
        (alone word first).isOk = true ∧
          ∀ piece ∈ others, blank piece = false → (alone word piece).isOk = true) ∧
      ∀ actions, parseRaw (word ++ text) = .ok actions →
        ∃ command commands,
          alone word first = .ok [⟨kind, [command]⟩] ∧
          (blank first = true → command = some (Command.unrecognized "")) ∧
          List.Forall₂ (fun piece command => alone word piece = .ok [⟨kind, [command]⟩])
            (others.filter fun piece => !blank piece) commands ∧
          actions = [⟨kind, command :: commands ++
            if others.getLast?.any blank then [some (Command.unrecognized "")] else []⟩] := by
  have cut : Cut ',' text.toList (pieces text) := cut_splitOn ',' text.toList
  obtain ⟨first, others, split⟩ := List.exists_cons_of_ne_nil cut.ne_nil
  rw [split] at cut
  have read (actions : List RawAction) : parseRaw (word ++ text) = .ok actions ↔ _ :=
    parseRaw_cut_iff named plain cut
  have inside (piece : List Char) (member : piece ∈ first :: others) :
      ∀ c ∈ piece, c ≠ ';' ∧ isStray c = false := fun c within =>
    (plain c (cut.mem member c within).1).2
  have whole (piece : List Char) (member : piece ∈ first :: others) : ',' ∉ piece := fun within =>
    (cut.mem member _ within).2 rfl
  refine ⟨first, others, split, ?_, fun actions result => ?_⟩
  · have single (piece : List Char) (member : piece ∈ first :: others) :=
      isOk_alone_iff named (inside piece member) (whole piece member)
    have follow : (∀ piece ∈ others, blank piece = false → (alone word piece).isOk = true) ↔
        ∃ found, AreCommands others found := by
      rw [exists_areCommands_iff]
      exact forall₂_congr fun piece member => imp_congr_right fun _ => single piece (.tail _ member)
    rw [isOk_iff, single first (.head _), follow]
    constructor
    · rintro ⟨actions, accepted⟩
      obtain ⟨value, more, command, commands, -⟩ := (read actions).mp accepted
      exact ⟨⟨value, command⟩, more, commands⟩
    · rintro ⟨⟨value, command⟩, more, commands⟩
      exact ⟨_, (read _).mpr ⟨value, more, command, commands, rfl⟩⟩
  · obtain ⟨value, _, command, ⟨values, commands, rfl⟩, rfl⟩ := (read actions).mp result
    have stands (piece : List Char) (member : piece ∈ first :: others) (value : Phrase)
        (command : IsCommand piece value) :
        alone word piece = .ok [⟨kind, [value.command?]⟩] :=
      (alone_eq_ok_iff named (inside piece member) (whole piece member)).mpr ⟨value, command, rfl⟩
    refine ⟨value.command?, values.map Phrase.command?, stands first (.head _) value command,
      fun spaces => ?_, ?_, ?_⟩
    · rw [(isCommand_iff_of_blank spaces).mp command]
      rfl
    · have both := (List.forall₂_and_left _ _).mpr
        ⟨fun piece kept => List.mem_of_mem_filter kept, commands⟩
      rw [List.forall₂_map_right_iff]
      exact both.imp fun piece value found => stands piece (.tail _ found.1) value found.2
    · rw [phantom, List.map_cons, List.map_append, apply_ite (List.map Phrase.command?)]
      rfl

/-- A command with two commas after it. -/
theorem parseRaw_iff_pieces_commas :
    parseRaw ("Create" ++ " examine,,") =
      .ok [⟨.create, [some (.ofKind .examine), some (Command.unrecognized "")]⟩] := by
  have named : Trigger.ofWord? "Create" = some .create := by decide +kernel
  have plain : ∀ c ∈ " examine,,".toList, c ≠ '\x22' ∧ c ≠ ';' ∧ isStray c = false := by decide
  have cut : pieces " examine,," = [" examine".toList, [], []] := by decide
  obtain ⟨first, others, split, accepted, read⟩ := parseRaw_iff_pieces named plain
  rw [cut, List.cons.injEq] at split
  obtain ⟨rfl, rfl⟩ := split
  have command : IsCommand " examine".toList .examine := by
    have word : (phraseOf .examine ("examine".toList ++ [])).result = some (.examine, []) := by
      rw [phraseOf, examine, result_bind_of_some (result_keyword_of_same rfl [])]
      rfl
    have start : strip " examine".toList = "examine".toList ++ [] := by decide
    have known : CommandKind.examine ∈ CommandKind.recognized := by decide
    have read := result_phrase_of_word known word
    rw [IsCommand, start]
    exact ⟨[], read, rfl⟩
  have single : alone "Create" " examine".toList = .ok [⟨.create, [some (.ofKind .examine)]⟩] :=
    (alone_eq_ok_iff named (by decide) (by decide)).mpr ⟨_, command, rfl⟩
  have blanks : ∀ piece ∈ [[], []], blank piece = false → (alone "Create" piece).isOk = true := by
    simp
  obtain ⟨actions, found⟩ := isOk_iff.mp (accepted.mpr ⟨by rw [single]; rfl, blanks⟩)
  obtain ⟨one, more, same, -, each, rfl⟩ := read actions found
  rw [single] at same
  cases same
  cases List.forall₂_nil_left_iff.mp each
  exact found

end ActionString
