import ActionString.Proofs.Blind
import ActionString.Proofs.Clauses

/-!
# Reading words up to an end

What the rules make of a text that begins with a known word and goes on with a space, a separator
or nothing. A rule that reads each of several words so reads them all, with spaces between them.
-/

namespace ActionString.Grammar

open Rule Word

variable {α : Type}

/-- A text is over, or goes on with a space or a separator. -/
def Ends (tail : List Char) : Prop := ∀ c ∈ tail.head?, c ∈ [' ', ',', ';']

/-- A separator ends a word. -/
theorem Ends.of_at {tail : List Char} (ends : Stops.both.At tail) : Ends tail :=
  fun c member => .tail _ (ends c member)

/-- A space ends a word. -/
theorem Ends.space (rest : List Char) : Ends (' ' :: rest) := by
  intro c same
  cases same
  exact .head _

/-- A condition that refuses ends does not hold at an end. -/
theorem Ends.refused {accepts : Char → Bool} {tail : List Char} (ends : Ends tail)
    (refused : ∀ c ∈ [' ', ',', ';'], accepts c = false) : ∀ c ∈ tail.head?, accepts c = false :=
  fun c member => refused c (ends c member)

/-- What is refused of the first thirty-three characters is refused of spaces. -/
theorem refused_of_isSpace {accepts : Char → Bool}
    (refused : ∀ n < 33, accepts (Char.ofNat n) = false) {c : Char} (space : isSpace c = true) :
    accepts c = false := by
  have small : c.toNat < 33 := Nat.lt_succ_of_le (of_decide_eq_true space)
  rw [← Char.ofNat_toNat c]
  exact refused _ small

/-- Characters that satisfy a condition end where one does not. -/
theorem span_append {accepts : Char → Bool} {word tail : List Char}
    (accepted : ∀ c ∈ word, accepts c = true) (refused : ∀ c ∈ tail.head?, accepts c = false) :
    (word ++ tail).takeWhile accepts = word ∧ (word ++ tail).dropWhile accepts = tail := by
  have stop : tail.takeWhile accepts = [] ∧ tail.dropWhile accepts = tail := by
    cases tail with
    | nil => exact ⟨rfl, rfl⟩
    | cons c rest =>
      have never : ¬accepts c = true := by simp [refused c rfl]
      exact ⟨List.takeWhile_cons_of_neg never, List.dropWhile_cons_of_neg never⟩
  rw [List.takeWhile_append_of_pos accepted, List.dropWhile_append_of_pos accepted, stop.1, stop.2]
  exact ⟨List.append_nil word, rfl⟩

/-- Characters are read up to one that is refused. -/
theorem result_chars {kind : CharClass} {word tail : List Char} (nonempty : word ≠ [])
    (accepted : ∀ c ∈ word, kind.accepts c = true)
    (refused : ∀ c ∈ tail.head?, kind.accepts c = false) :
    (chars kind (word ++ tail)).result = some (word, tail) := by
  have span := span_append accepted refused
  simp [chars, expecting, span.1, span.2, nonempty]

/-- A word of a class that is read is some characters of the class, up to one that is not. -/
theorem of_result_chars {kind : CharClass} {text value rest : List Char}
    (found : (chars kind text).result = some (value, rest)) :
    text = value ++ rest ∧ value ≠ [] ∧ (∀ c ∈ value, kind.accepts c = true) ∧
      ∀ c ∈ rest.head?, kind.accepts c = false := by
  unfold chars expecting at found
  split at found
  · rename_i pair read
    dsimp only at read
    split at read
    · cases read
    · rename_i some
      cases read
      cases found
      refine ⟨List.takeWhile_append_dropWhile.symm, by simpa using some,
        List.all_eq_true.mp List.all_takeWhile, fun c front => ?_⟩
      have stop := List.head?_dropWhile_not kind.accepts text
      rw [front] at stop
      exact stop
  · cases found

/-- A fixed text is read where it stands. -/
theorem result_literal (word : String) (rest : List Char) :
    (literal word (word.toList ++ rest)).result = some (word.toList, rest) := by
  have found (front : List Char) : front.isPrefixOf? (front ++ rest) = some rest := by
    induction front with
    | nil => rfl
    | cons c front ih => simp [List.isPrefixOf?, ih]
  simp [literal, expecting, found]

/-- A fixed text that is read stands at the front. -/
theorem eq_append_of_result_literal {word : String} {text value rest : List Char}
    (found : (literal word text).result = some (value, rest)) :
    value = word.toList ∧ text = word.toList ++ rest := by
  have split (front : List Char) : ∀ {text : List Char}, front.isPrefixOf? text = some rest →
      text = front ++ rest := by
    induction front with
    | nil =>
      intro text same
      cases same
      rfl
    | cons c front ih =>
      intro text same
      cases text with
      | nil => cases same
      | cons d text =>
        by_cases equal : c = d
        · simp only [List.isPrefixOf?, equal, beq_self_eq_true, if_true] at same
          rw [equal, ih same, List.cons_append]
        · simp [List.isPrefixOf?, equal] at same
  unfold literal expecting at found
  cases result : word.toList.isPrefixOf? text with
  | none => simp [result] at found
  | some last =>
    simp only [result, Option.map_some, Option.some.injEq, Prod.mk.injEq] at found
    obtain ⟨rfl, rfl⟩ := found
    exact ⟨rfl, split _ result⟩

/-- A word that ends nowhere inside lies within the text before an end. -/
theorem exists_eq_append_of_spare {word rest front tail : List Char}
    (same : front ++ tail = word ++ rest) (ends : Ends tail)
    (spare : ∀ c ∈ [' ', ',', ';'], c ∉ word) : ∃ inner, front = word ++ inner ∧
      rest = inner ++ tail := by
  obtain ⟨inner, first, second⟩ | ⟨outer, first, second⟩ := List.append_eq_append_iff.mp same
  · cases inner with
    | nil => exact ⟨[], by simpa using first.symm, by simpa using second.symm⟩
    | cons c inner =>
      have stop : c ∈ [' ', ',', ';'] := ends c (by rw [second]; rfl)
      exact absurd (by rw [first]; simp) (spare c stop)
  · exact ⟨outer, first, second⟩

/-- A text begins with neither a space nor a separator. -/
def Solid (text : List Char) : Prop :=
  ∃ c ∈ text.head?, isSpace c = false ∧ ∀ d ∈ Stops.both.chars, c ≠ d

/-- A solid text goes on being solid. -/
theorem Solid.append {word : List Char} (solid : Solid word) (text : List Char) :
    Solid (word ++ text) := by
  obtain ⟨c, front, rest⟩ := solid
  exact ⟨c, List.mem_head?_append_of_mem_head? front, rest⟩

/-- There are no spaces to strip in front of a solid text. -/
theorem Solid.strip {text : List Char} (solid : Solid text) : Rule.strip text = text := by
  obtain ⟨c, front, noSpace, -⟩ := solid
  obtain ⟨rest, rfl⟩ := List.head?_eq_some_iff.mp front
  exact strip_cons_of_not noSpace rest

/-- Nothing is passed over in front of a solid text. -/
theorem Solid.passOver {text : List Char} (solid : Solid text) {d : Char}
    (stop : d ∈ Stops.both.chars) : Rule.passOver d text = text := by
  obtain ⟨c, front, noSpace, other⟩ := solid
  obtain ⟨rest, rfl⟩ := List.head?_eq_some_iff.mp front
  exact passOver_of_solid noSpace (other d stop) rest

/-- The spelling of a word of letters is made of letters. -/
theorem isAlpha_of_same {word spelt : List Char} (letters : ∀ c ∈ word, c.toLower.isAlpha = true)
    (same : spelt.map Char.toLower = word.map Char.toLower) :
    ∀ c ∈ spelt, c.toLower.isAlpha = true := by
  intro c member
  obtain ⟨d, inside, equal⟩ := List.mem_map.mp (same ▸ List.mem_map_of_mem member)
  rw [← equal]
  exact letters d inside

/-- A letter is neither a space nor a separator. -/
theorem plain_of_isAlpha {c : Char} (letter : c.toLower.isAlpha = true) :
    isSpace c = false ∧ ∀ d ∈ Stops.both.chars, c ≠ d := by
  have differs (d : Char) (symbol : d.toLower.isAlpha = false) : c ≠ d := by
    rintro rfl
    rw [letter] at symbol
    cases symbol
  have stops : ∀ d ∈ Stops.both.chars, d.toLower.isAlpha = false := by decide
  refine ⟨Bool.eq_false_iff.mpr fun space => ?_, fun d stop => differs d (stops d stop)⟩
  have symbols : ∀ n < 33, (Char.ofNat n).toLower.isAlpha = false := by decide
  exact differs c (@refused_of_isSpace (fun c => c.toLower.isAlpha) symbols c space) rfl

/-- The spelling of a word of letters is solid. -/
theorem solid_of_same {word spelt : List Char} (some : word ≠ [])
    (letters : ∀ c ∈ word, c.toLower.isAlpha = true)
    (same : spelt.map Char.toLower = word.map Char.toLower) : Solid spelt := by
  cases spelt with
  | nil => exact absurd (List.map_eq_nil_iff.mp same.symm) some
  | cons c rest => exact ⟨c, rfl, plain_of_isAlpha (isAlpha_of_same letters same c (.head _))⟩

/-- The word of a trigger is made of letters. -/
theorem isAlpha_trigger (kind : Trigger) : ∀ c ∈ kind.word.toList, c.toLower.isAlpha = true := by
  cases kind <;> decide

/-- The word of a kind of commands is made of letters. -/
theorem isAlpha_kind (kind : CommandKind) : ∀ c ∈ kind.word.toList, c.toLower.isAlpha = true := by
  cases kind <;> decide

/-- The spelling of a kind of commands begins neither with a space nor with a separator. -/
theorem solid_kind {kind : CommandKind} {spelt : List Char}
    (same : spelt.map Char.toLower = kind.word.toList.map Char.toLower) : Solid spelt :=
  solid_of_same (by cases kind <;> decide) (isAlpha_kind kind) same

/-- A word that a rule reads up to every end. -/
structure Reads (rule : Rule α) (word : List Char) (value : α) : Prop where
  solid : ∃ c rest, word = c :: rest ∧ isSpace c = false
  result : ∀ ⦃tail⦄, Ends tail → (rule (word ++ tail)).result = some (value, tail)

/-- A rule that reads each of several words reads them one after the other, with a space before
each of them. -/
theorem result_spacedMany_words {rule : Rule α} {items : List (List Char × α)}
    (each : ∀ item ∈ items, Reads rule item.1 item.2) {tail : List Char} (ends : Ends tail)
    (last : (rule (strip tail)).result = none) :
    (spacedMany rule (items.flatMap (fun item => ' ' :: item.1) ++ tail)).result =
      some (items.map Prod.snd, tail) := by
  induction items with
  | nil =>
    rw [List.flatMap_nil, List.nil_append, spacedMany_of_none last]
    rfl
  | cons item items ih =>
    rw [List.forall_mem_cons] at each
    obtain ⟨⟨⟨c, rest, front, solid⟩, result⟩, others⟩ := each
    have next : Ends (items.flatMap (fun item => ' ' :: item.1) ++ tail) := by
      cases items with
      | nil => exact ends
      | cons other items => exact Ends.space _
    have stripped : strip ((item :: items).flatMap (fun item => ' ' :: item.1) ++ tail) =
        item.1 ++ (items.flatMap (fun item => ' ' :: item.1) ++ tail) := by
      rw [List.flatMap_cons, List.cons_append, List.cons_append, strip_cons_of_isSpace (by decide),
        List.append_assoc, front, List.cons_append, strip_cons_of_not solid]
    rw [spacedMany_of_some (by rw [stripped, result next]), ih others]
    · rfl
    · simp only [List.flatMap_cons, List.cons_append, List.length_cons, List.length_append]
      omega

/-- A key that stops within a text without equals signs is not the key of a parameter. -/
theorem result_assign_of_plain {β : Type} {key : Rule (List Char)}
    (next : List Char → List Char → Rule β) {front tail : List Char} (plain : '=' ∉ front)
    (ends : Ends tail)
    (within : ∀ value rest, (key (front ++ tail)).result = some (value, rest) →
      ∃ inner, inner <:+ front ∧ rest = inner ++ tail) :
    ((key >>= fun value => literal "=" >>= next value) (front ++ tail)).result = none := by
  cases found : (key (front ++ tail)).result with
  | none => exact result_bind_of_none found _
  | some pair =>
    obtain ⟨inner, part, same⟩ := within pair.1 pair.2 found
    rw [result_bind_of_some found, same]
    refine result_bind_of_none (result_literal_of_ne (d := '=') rfl ?_) _
    cases inner with
    | nil =>
      intro head
      have stop := ends '=' head
      simp at stop
    | cons c inner =>
      intro head
      cases head
      exact plain (part.subset (.head _))

/-- A fixed text without ends stops within the text before an end. -/
theorem literal_within {word : String} (spare : ∀ c ∈ [' ', ',', ';'], c ∉ word.toList)
    {front tail : List Char} (ends : Ends tail) (value rest : List Char)
    (found : (literal word (front ++ tail)).result = some (value, rest)) :
    ∃ inner, inner <:+ front ∧ rest = inner ++ tail := by
  obtain ⟨-, same⟩ := eq_append_of_result_literal found
  obtain ⟨inner, split, last⟩ := exists_eq_append_of_spare same ends spare
  exact ⟨inner, ⟨word.toList, split.symm⟩, last⟩

/-- A keyword without ends stops within the text before an end. -/
theorem keyword_within {word : String}
    (spare : ∀ c ∈ [' ', ',', ';'], c.toLower ∉ word.toList.map Char.toLower)
    {front tail : List Char} (ends : Ends tail) (value rest : List Char)
    (found : (keyword word (front ++ tail)).result = some (value, rest)) :
    ∃ inner, inner <:+ front ∧ rest = inner ++ tail := by
  have spelt := stripFolded_of_result_keyword found
  have folded := Text.map_toLower_of_stripFolded spelt
  have free : ∀ c ∈ [' ', ',', ';'], c ∉ value := fun c stop member =>
    spare c stop (folded ▸ List.mem_map_of_mem member)
  obtain ⟨inner, split, last⟩ :=
    exists_eq_append_of_spare (Text.eq_append_of_stripFolded spelt) ends free
  exact ⟨inner, ⟨value, split.symm⟩, last⟩

/-- A parameter is its key, an equals sign and its value. -/
theorem result_parameter {key value : Rule (List Char)} {text middle rest k v : List Char}
    (meant : String → ParameterValue) (first : (key text).result = some (k, '=' :: middle))
    (second : (value middle).result = some (v, rest)) :
    (Argument.parameter key value meant text).result =
      some (.parameter (String.ofList k) (meant (String.ofList v)), rest) := by
  have equals : (literal "=" ('=' :: middle)).result = some (['='], middle) :=
    result_literal_self rfl middle
  simp [Argument.parameter, result_bind, first, equals, second]

/-- Digits after the key of the tag are read as the tag. -/
theorem result_tag {digits tail : List Char} (nonempty : digits ≠ [])
    (accepted : ∀ c ∈ digits, CharClass.digit.accepts c = true) (ends : Ends tail) :
    (Argument.tag ("tag=".toList ++ digits ++ tail)).result =
      some (.parameter "tag" (.integer (String.ofList digits)), tail) := by
  have key : (literal "tag" ("tag=".toList ++ digits ++ tail)).result =
      some ("tag".toList, '=' :: (digits ++ tail)) := result_literal "tag" _
  have value := result_chars nonempty accepted (ends.refused (by decide))
  rw [Argument.tag, Argument.integerParameter, integer, result_parameter .integer key value,
    String.ofList_toList]

/-- At an end no character of a file name comes next. -/
theorem result_notAhead_of_ends {tail : List Char} (ends : Ends tail) :
    (notAhead (oneOf .fileName) tail).result = some ((), tail) := by
  cases tail with
  | nil => rfl
  | cons c rest =>
    have refused : CharClass.fileName.accepts c = false := ends.refused (by decide) c rfl
    simp [notAhead, oneOf, expecting, refused]

/-- A word of a flag is read as a whole word up to an end. -/
theorem result_whole_status {flag : Flag} {off word : String} (paired : flag.offWord? = some off)
    (known : word = flag.word ∨ word = off) {tail : List Char} (ends : Ends tail) :
    (whole (Argument.status flag) (word.toList ++ tail)).result =
      some (.status flag word, tail) := by
  have ahead := result_notAhead_of_ends ends
  obtain rfl | rfl := known
  · have first := result_literal flag.word tail
    simp [whole, Argument.status, paired, make, result_bind, result_firstOf_cons, first, ahead]
  · have first : (literal flag.word (word.toList ++ tail)).result = none := by
      cases flag <;> cases paired <;> rfl
    have second := result_literal word tail
    simp [whole, Argument.status, paired, make, result_bind, result_firstOf_cons, first, second,
      ahead]

/-- Another word than those of a flag is not read as one of them, whatever it begins with. -/
theorem result_whole_status_of_ne {flag : Flag} {off : String} (paired : flag.offWord? = some off)
    {name : String} {tail : List Char}
    (made : ∀ c ∈ name.toList, CharClass.fileName.accepts c = true)
    (other : name ≠ flag.word ∧ name ≠ off) (ends : Ends tail) :
    (whole (Argument.status flag) (name.toList ++ tail)).result = none := by
  have spare : ∀ word ∈ [flag.word, off], ∀ c ∈ [' ', ',', ';'], c ∉ word.toList := by
    cases flag <;> cases paired <;> decide
  -- Where a word of the flag is read, a character of the name comes after it.
  have ahead {value rest : List Char} {word : String} (known : word ∈ [flag.word, off])
      (differs : name ≠ word)
      (found : (literal word (name.toList ++ tail)).result = some (value, rest)) :
      (notAhead (oneOf .fileName) rest).result = none := by
    obtain ⟨-, same⟩ := eq_append_of_result_literal found
    obtain ⟨inner, split, rfl⟩ := exists_eq_append_of_spare same ends (spare word known)
    cases inner with
    | nil => exact absurd (String.toList_inj.mp (by simpa using split)) differs
    | cons c inner =>
      have accepted : CharClass.fileName.accepts c = true := made c (by rw [split]; simp)
      simp [notAhead, oneOf, expecting, accepted]
  cases first : (literal flag.word (name.toList ++ tail)).result with
  | some pair =>
    have stop := ahead (.head _) other.1 first
    simp [whole, Argument.status, paired, make, result_bind, result_firstOf_cons, first, stop]
  | none =>
    cases second : (literal off (name.toList ++ tail)).result with
    | some pair =>
      have stop := ahead (.tail _ (.head _)) other.2 second
      simp [whole, Argument.status, paired, make, result_bind, result_firstOf_cons, first, second,
        stop]
    | none =>
      simp [whole, Argument.status, paired, make, result_bind, result_firstOf_cons, first, second]

/-- A text that is read as a command up to every separator. -/
structure Spells (text : List Char) (value : Phrase) : Prop where
  solid : Solid text
  result : ∀ ⦃tail⦄, Stops.both.At tail → (phrase (text ++ tail)).result = some (value, tail)

/-- A command word with a text that is read as its arguments spells the command. -/
theorem Spells.of_arguments {kind : CommandKind} (known : kind ∈ CommandKind.recognized)
    {rule : Rule Argument} (shape : phraseOf kind = withArguments kind rule) {body : List Char}
    {arguments : List Argument}
    (read : ∀ ⦃tail⦄, Stops.both.At tail →
      (spacedMany rule (body ++ tail)).result = some (arguments, tail)) :
    Spells (kind.word.toList ++ body) (.arguments kind arguments) where
  solid := (solid_kind rfl).append _
  result := by
    intro tail ends
    rw [List.append_assoc]
    refine result_phrase_of_word known ?_
    rw [shape, withArguments, result_bind_of_some (result_keyword_of_same rfl _),
      result_bind_of_some (read ends)]
    rfl

/-- A command word with words that are read as its arguments spells the command. -/
theorem Spells.of_words {kind : CommandKind} (known : kind ∈ CommandKind.recognized)
    {rule : Rule Argument} (shape : phraseOf kind = withArguments kind rule)
    (blind : Blind (· ≠ '\x22') .both rule) (missed : (rule []).result = none)
    {items : List (List Char × Argument)} (each : ∀ item ∈ items, Reads rule item.1 item.2) :
    Spells (kind.word.toList ++ items.flatMap fun item => ' ' :: item.1)
      (.arguments kind (items.map Prod.snd)) := by
  refine .of_arguments known shape fun tail ends => ?_
  have last : (rule (strip ([] ++ tail))).result = none := by
    rw [Stops.strip_append ends, blind (by simp [strip]) ends, Outcome.extend, strip,
      List.dropWhile_nil, missed]
    rfl
  exact result_spacedMany_words each (.of_at ends) last

/-- Texts after commas end at a separator what is before them. -/
theorem at_flatMap_comma (texts : List (List Char)) {tail : List Char}
    (ended : Stops.semicolon.At tail) :
    Stops.both.At (texts.flatMap (", ".toList ++ ·) ++ tail) := by
  cases texts with
  | nil => exact fun c member => .tail _ (ended c member)
  | cons text texts => exact Stops.at_cons (by decide) _

/-- Commands that are spelt after commas are read up to a semicolon. -/
theorem result_morePhrases_spells {items : List (List Char × Phrase)}
    (each : ∀ item ∈ items, Spells item.1 item.2) {tail : List Char}
    (ended : Stops.semicolon.At tail) :
    (morePhrases ((items.map Prod.fst).flatMap (", ".toList ++ ·) ++ tail)).result =
      some (items.map Prod.snd, tail) := by
  induction items with
  | nil =>
    refine result_morePhrases_of_ne ?_
    have stripped : strip ([] ++ tail) = tail := Stops.strip_append ended
    rw [List.map_nil, List.flatMap_nil, stripped]
    intro comma
    have semicolon := ended ',' comma
    simp [Stops.semicolon] at semicolon
  | cons item items ih =>
    rw [List.forall_mem_cons] at each
    have passed (more : List Char) : passOver ',' (", ".toList ++ item.1 ++ more) = item.1 ++ more :=
      (each.1.solid.append more).passOver (by decide)
    have found := each.1.result (at_flatMap_comma (items.map Prod.fst) ended)
    rw [List.map_cons, List.flatMap_cons, List.append_assoc,
      result_morePhrases_of_eq rfl (by rw [passed, found]), ih each.2]
    rfl

/-- A trigger with commands that are spelt after it is read up to a semicolon. -/
theorem result_clause_spells (kind : Trigger) {first : List Char × Phrase}
    {others : List (List Char × Phrase)} (each : ∀ item ∈ first :: others, Spells item.1 item.2)
    {tail : List Char} (ended : Stops.semicolon.At tail) :
    (clause (kind.word.toList ++ (' ' ::
      (first.1 ++ ((others.map Prod.fst).flatMap (", ".toList ++ ·) ++ tail))))).result =
        some (⟨kind, (first :: others).map Prod.snd⟩, tail) := by
  rw [List.forall_mem_cons] at each
  have stripped (more : List Char) : strip (' ' :: (first.1 ++ more)) = first.1 ++ more := by
    rw [strip_cons_of_isSpace (by decide), (each.1.solid.append more).strip]
  have found := each.1.result (at_flatMap_comma (others.map Prod.fst) ended)
  rw [result_clause_of_some (result_trigger_word kind _) (by rw [stripped, found]),
    result_morePhrases_spells each.2 ended]
  rfl

end ActionString.Grammar
