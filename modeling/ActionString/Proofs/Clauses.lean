import ActionString.Proofs.Separated

/-!
# Equations for commands and clauses

A command is read from every text. So a clause is its trigger, a first command, and the commands
that follow it; these equations say where each of them is read.
-/

namespace ActionString

/-- A text begins with a word, in any ASCII case. -/
def Begins (word : String) (text : List Char) : Prop :=
  ∃ front rest, text = front ++ rest ∧ Text.sameFolded word (String.ofList front) = true

/-- What is spelt at the front of a text is the word, up to case. -/
theorem Text.map_toLower_of_stripFolded {word text spelt rest : List Char}
    (found : Text.stripFolded word text = some (spelt, rest)) :
    spelt.map Char.toLower = word.map Char.toLower := by
  induction word generalizing text spelt with
  | nil =>
    simp only [Text.stripFolded, Option.some.injEq, Prod.mk.injEq] at found
    rw [← found.1]
  | cons w word ih =>
    cases text with
    | nil => simp [Text.stripFolded] at found
    | cons c text =>
      by_cases same : c.toLower = w.toLower
      · simp only [Text.stripFolded, same, if_true, Option.map_eq_some_iff] at found
        obtain ⟨⟨spelt', rest'⟩, inner, outer⟩ := found
        simp only [Prod.mk.injEq] at outer
        obtain ⟨rfl, rfl⟩ := outer
        rw [List.map_cons, List.map_cons, ih inner, same]
      · simp [Text.stripFolded, same] at found

/-- A word is spelt at the front of a text that is made up of it, up to case. -/
theorem Text.stripFolded_of_map_toLower {word spelt : List Char}
    (same : spelt.map Char.toLower = word.map Char.toLower) (rest : List Char) :
    Text.stripFolded word (spelt ++ rest) = some (spelt, rest) := by
  induction word generalizing spelt with
  | nil =>
    obtain rfl : spelt = [] := List.map_eq_nil_iff.mp same
    rfl
  | cons w word ih =>
    cases spelt with
    | nil => simp at same
    | cons c spelt =>
      rw [List.map_cons, List.map_cons, List.cons.injEq] at same
      simp [Text.stripFolded, same.1, ih same.2]

/-- A word is read from the texts that begin with it. -/
theorem stripFolded_eq_none_iff {word : String} {text : List Char} :
    Text.stripFolded word.toList text = none ↔ ¬Begins word text := by
  constructor
  · rintro missed ⟨front, rest, rfl, same⟩
    rw [Text.sameFolded_iff, String.toList_ofList] at same
    rw [Text.stripFolded_of_map_toLower same.symm] at missed
    cases missed
  · intro other
    cases found : Text.stripFolded word.toList text with
    | none => rfl
    | some pair =>
      obtain ⟨spelt, rest⟩ := pair
      refine absurd ⟨spelt, rest, Text.eq_append_of_stripFolded found, ?_⟩ other
      rw [Text.sameFolded_iff, String.toList_ofList, Text.map_toLower_of_stripFolded found]

namespace Grammar

open Rule Word

/-- A keyword is not read from a text that does not begin with it. -/
theorem result_keyword_of_not_begins {word : String} {text : List Char}
    (other : ¬Begins word text) : (keyword word text).result = none := by
  rw [keyword, expecting, stripFolded_eq_none_iff.mpr other]

/-- A keyword is read as it is spelt. -/
theorem result_keyword_of_same {word : String} {spelt : List Char}
    (same : spelt.map Char.toLower = word.toList.map Char.toLower) (rest : List Char) :
    (keyword word (spelt ++ rest)).result = some (spelt, rest) := by
  rw [keyword, expecting, Text.stripFolded_of_map_toLower same]

/-- A keyword that is read is spelt at the front of the text. -/
theorem stripFolded_of_result_keyword {word : String} {text value rest : List Char}
    (found : (keyword word text).result = some (value, rest)) :
    Text.stripFolded word.toList text = some (value, rest) := by
  unfold keyword expecting at found
  split at found
  · rename_i pair result
    rw [result]
    exact found
  · cases found

/-- A choice from two lists is a choice from the second where the first has nothing. -/
theorem result_firstOf_append {α : Type} (rules others : List (Rule α)) (text : List Char) :
    (firstOf (rules ++ others) text).result =
      (firstOf rules text).result.or (firstOf others text).result := by
  induction rules with
  | nil => rfl
  | cons rule rules ih =>
    rw [List.cons_append, firstOf, firstOf, result_orElse, result_orElse, ih, Option.or_assoc]

/-- Where no rule of a list applies, there is no choice. -/
theorem result_firstOf_of_none {α : Type} {rules : List (Rule α)} {text : List Char}
    (missed : ∀ rule ∈ rules, (rule text).result = none) : (firstOf rules text).result = none := by
  induction rules with
  | nil => rfl
  | cons rule rules ih =>
    rw [List.forall_mem_cons] at missed
    rw [firstOf, result_orElse, missed.1, ih missed.2]
    rfl

/-- Where only one rule of a family can apply, a choice is that rule. -/
theorem result_firstOf_map {ι α : Type} {family : ι → Rule α} {indices : List ι} {index : ι}
    (member : index ∈ indices) {text : List Char}
    (others : ∀ other ∈ indices, other ≠ index → (family other text).result = none) :
    (firstOf (indices.map family) text).result = (family index text).result := by
  induction indices with
  | nil => cases member
  | cons first indices ih =>
    rw [List.forall_mem_cons] at others
    rw [List.map_cons, firstOf, result_orElse]
    by_cases here : index ∈ indices
    · rw [ih here others.2]
      by_cases same : first = index
      · rw [same]
        cases (family index text).result <;> rfl
      · rw [others.1 same]
        rfl
    · obtain rfl : index = first := (List.mem_cons.mp member).resolve_right here
      have missed : (firstOf (indices.map family) text).result = none := by
        refine result_firstOf_of_none fun rule inside => ?_
        obtain ⟨other, known, rfl⟩ := List.mem_map.mp inside
        exact others.2 other known fun same => here (same ▸ known)
      rw [missed, Option.or_none]

/-- Two words differ before either of them ends. -/
def Differ (first second : String) : Prop :=
  ∃ pair ∈ first.toList.zip second.toList, pair.1.toLower ≠ pair.2.toLower

instance (first second : String) : Decidable (Differ first second) :=
  List.decidableBEx _ _

/-- A word is not read from a text that begins with a different word, in any ASCII case. -/
theorem result_keyword_of_differ {word other : String} (differ : Differ other word)
    {spelt : List Char} (same : spelt.map Char.toLower = word.toList.map Char.toLower)
    (rest : List Char) : (keyword other (spelt ++ rest)).result = none := by
  have missed : ∀ {first second spelt : List Char},
      spelt.map Char.toLower = second.map Char.toLower →
      (∃ pair ∈ first.zip second, pair.1.toLower ≠ pair.2.toLower) →
        Text.stripFolded first (spelt ++ rest) = none := by
    intro first second spelt same pairs
    induction first generalizing second spelt with
    | nil => simp at pairs
    | cons c first ih =>
      cases second with
      | nil => simp at pairs
      | cons d second =>
        cases spelt with
        | nil => cases same
        | cons e spelt =>
          rw [List.map_cons, List.map_cons, List.cons.injEq] at same
          by_cases equal : d.toLower = c.toLower
          · have later : ∃ pair ∈ first.zip second, pair.1.toLower ≠ pair.2.toLower := by
              simpa [equal] using pairs
            simp [Text.stripFolded, same.1, equal, ih same.2 later]
          · simp [Text.stripFolded, same.1, equal]
  rw [keyword, expecting, missed same differ]

/-- A command begins with the word of its kind. -/
theorem result_phraseOf_of_none {kind : CommandKind} (known : kind ∈ CommandKind.recognized)
    {text : List Char} (missed : (keyword kind.word text).result = none) :
    (phraseOf kind text).result = none := by
  rw [CommandKind.mem_recognized_iff] at known
  cases kind
  case invalid => exact absurd rfl known
  all_goals exact result_bind_of_none missed _

/-- An unrecognised command is all the text up to a separator. -/
theorem result_unrecognized (text : List Char) :
    (unrecognized text).result =
      some (.unrecognized (String.ofList (text.takeWhile fun c => c ≠ ';' && c ≠ ',')),
        text.dropWhile fun c => c ≠ ';' && c ≠ ',') := rfl

/-- A command is that of the first recognised kind, or else unrecognised. -/
theorem result_phrase (text : List Char) :
    (phrase text).result =
      (firstOf (CommandKind.recognized.map phraseOf) text).result.or (unrecognized text).result := by
  rw [phrase, List.map_append, result_firstOf_append]
  rfl

/-- A command is read from every text. -/
theorem exists_result_phrase (text : List Char) :
    ∃ value rest, (phrase text).result = some (value, rest) := by
  rw [result_phrase]
  cases (firstOf (CommandKind.recognized.map phraseOf) text).result with
  | none => exact ⟨_, _, rfl⟩
  | some pair => exact ⟨pair.1, pair.2, rfl⟩

/-- Text that begins with no command word is an unrecognised command. -/
theorem result_phrase_of_foreign {text : List Char}
    (foreign : ∀ kind ∈ CommandKind.recognized, ¬Begins kind.word text) :
    (phrase text).result = (unrecognized text).result := by
  have missed : (firstOf (CommandKind.recognized.map phraseOf) text).result = none := by
    refine result_firstOf_of_none fun rule member => ?_
    obtain ⟨kind, known, rfl⟩ := List.mem_map.mp member
    exact result_phraseOf_of_none known (result_keyword_of_not_begins (foreign kind known))
  rw [result_phrase, missed]
  rfl

/-- The words of two recognised kinds differ before either of them ends. -/
theorem differ_word : ∀ kind ∈ CommandKind.recognized, ∀ other ∈ CommandKind.recognized,
    other ≠ kind → Differ other.word kind.word := by decide +kernel

/-- A command that begins with the word of a recognised kind, in any ASCII case, is of this kind or
else unrecognised. -/
theorem result_phrase_of_same {kind : CommandKind} (known : kind ∈ CommandKind.recognized)
    {spelt : List Char} (same : spelt.map Char.toLower = kind.word.toList.map Char.toLower)
    (rest : List Char) :
    (phrase (spelt ++ rest)).result =
      (phraseOf kind (spelt ++ rest)).result.or (unrecognized (spelt ++ rest)).result := by
  have others : ∀ other ∈ CommandKind.recognized, other ≠ kind →
      (phraseOf other (spelt ++ rest)).result = none := fun other member different =>
    result_phraseOf_of_none member
      (result_keyword_of_differ (differ_word kind known other member different) same rest)
  rw [result_phrase, result_firstOf_map known others]

/-- A command with the word of a recognised kind is of this kind. -/
theorem result_phrase_of_word {kind : CommandKind} (known : kind ∈ CommandKind.recognized)
    {rest last : List Char} {value : Phrase}
    (found : (phraseOf kind (kind.word.toList ++ rest)).result = some (value, last)) :
    (phrase (kind.word.toList ++ rest)).result = some (value, last) := by
  rw [result_phrase_of_same known rfl, found]
  rfl

/-- A trigger is read from its word in any ASCII case. -/
theorem result_trigger_of_same {kind : Trigger} {spelt : List Char}
    (same : spelt.map Char.toLower = kind.word.toList.map Char.toLower) (rest : List Char) :
    (trigger (spelt ++ rest)).result = some (kind, rest) := by
  have words : ∀ kind ∈ Trigger.all, ∀ other ∈ Trigger.all,
      other ≠ kind → Differ other.word kind.word := by decide
  have member := Trigger.mem_all kind
  have others : ∀ other ∈ Trigger.all, other ≠ kind →
      ((keyword other.word >>= fun _ => pure other : Rule Trigger) (spelt ++ rest)).result = none :=
    fun other inside different => result_bind_of_none
      (result_keyword_of_differ (words kind member other inside different) same rest) _
  rw [trigger, result_firstOf_map member others, result_bind, result_keyword_of_same same]
  rfl

/-- A trigger is read from its word. -/
theorem result_trigger_word (kind : Trigger) (rest : List Char) :
    (trigger (kind.word.toList ++ rest)).result = some (kind, rest) :=
  result_trigger_of_same rfl rest

/-- The commands after the first, and the comma that may stand at their end. -/
def morePhrases : Rule (List Phrase) :=
  followers "," phrase >>= fun phrases => spacedOptional (literal ",") >>= fun _ => pure phrases

/-- More commands are read from every text, if only none. -/
theorem exists_result_morePhrases (text : List Char) :
    ∃ values rest, (morePhrases text).result = some (values, rest) := by
  obtain ⟨values, rest, found⟩ := exists_result_followers "," phrase text
  simp [morePhrases, result_bind, found, spacedOptional, result_optional]

/-- Without a comma after spaces, no more commands are read. -/
theorem result_morePhrases_of_ne {text : List Char} (other : (strip text).head? ≠ some ',') :
    (morePhrases text).result = some ([], text) := by
  have single : ("," : String).toList = [','] := rfl
  simp [morePhrases, result_bind, result_followers_of_ne single phrase other, spacedOptional,
    result_optional, result_literal_of_ne single other]

/-- After a comma, the next command is read, and then more of them. -/
theorem result_morePhrases_of_eq {text rest : List Char} {value : Phrase}
    (front : (strip text).head? = some ',')
    (found : (phrase (passOver ',' text)).result = some (value, rest)) :
    (morePhrases text).result =
      (morePhrases rest).result.map fun more => (value :: more.1, more.2) := by
  have single : ("," : String).toList = [','] := rfl
  obtain ⟨values, last, more⟩ := exists_result_followers "," phrase rest
  simp [morePhrases, result_bind, result_followers_of_some single front found, more,
    spacedOptional, result_optional]

/-- A clause is its trigger, the first command after spaces, and the commands after it. -/
theorem result_clause_of_some {text middle rest : List Char} {trigger : Trigger} {value : Phrase}
    (first : (Grammar.trigger text).result = some (trigger, middle))
    (found : (phrase (strip middle)).result = some (value, rest)) :
    (clause text).result = (morePhrases rest).result.map fun more =>
      (⟨trigger, value :: more.1⟩, more.2) := by
  obtain ⟨values, last, more⟩ := exists_result_followers "," phrase rest
  simp [clause, morePhrases, result_bind, first, result_separated_of_some found, more,
    spacedOptional, result_optional]

/-- Without a trigger there is no clause. -/
theorem result_clause_of_none {text : List Char}
    (missed : (Grammar.trigger text).result = none) : (clause text).result = none := by
  simp [clause, result_bind, missed]

end Grammar

end ActionString
