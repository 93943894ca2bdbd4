import ActionString.Proofs.BlindRules
import ActionString.Proofs.Furthest
import ActionString.Proofs.Narrow
import ActionString.Proofs.Reaching

/-!
# Spaces outside quotes

A rule that is made of words reads the same from a text without quotes and from the narrowed text,
and leaves texts of which the second is the first narrowed. The text of an unrecognised command may
differ, and merging drops it. So a list of clauses is the same from both texts in the view of what
its commands do. Hence a source without quotes and the source with narrow spaces are accepted alike
and stand for the same actions.
-/

namespace ActionString

/-- What a command that was read does, unless merging drops it. -/
def Phrase.effect? (phrase : Phrase) : Option Command := phrase.command?.filter Command.survives

/-- A clause with what its commands do. -/
def Clause.effects (clause : Clause) : RawAction :=
  ⟨clause.trigger, clause.phrases.map Phrase.effect?⟩

/-- Merging sees what commands do. -/
theorem mergeActions_effects (clauses : List Clause) :
    mergeActions (clauses.map Clause.effects) = mergeActions (clauses.map Clause.rawAction) := by
  have into (merged : OrderedMap MergeKey Command) (command : Option Command) :
      mergeInto merged (command.filter Command.survives) = mergeInto merged command := by
    cases command with
    | none => rfl
    | some command => cases kept : command.survives <;> simp [mergeInto, Option.filter, kept]
  have commands (phrases : List Phrase) :
      mergeCommands (phrases.map Phrase.effect?) = mergeCommands (phrases.map Phrase.command?) := by
    simp only [mergeCommands, List.foldl_map, Phrase.effect?, into]
  have step (merged : ActionMap) (clause : Clause) :
      mergeAction merged clause.effects = mergeAction merged clause.rawAction := by
    rw [mergeAction, mergeAction, Clause.effects, Clause.rawAction, commands]
  simp only [mergeActions, List.foldl_map, step]

namespace Grammar

open Rule Word

/-- A rule that reads the same from a text and from the narrowed text, and narrows what is left. -/
def Steady {α : Type} (rule : Rule α) : Prop :=
  ∀ ⦃text⦄, (∀ c ∈ text, Ordinary c) →
    (rule (narrow text)).result = (rule text).result.map fun found => (found.1, narrow found.2)

namespace Steady

variable {α β : Type}

/-- A rule by a plain function is steady when the function is. -/
theorem expecting (expected : Expected) {read : List Char → Option (α × List Char)}
    (steady : ∀ {text}, (∀ c ∈ text, Ordinary c) →
      read (narrow text) = (read text).map fun found => (found.1, narrow found.2)) :
    Steady (Rule.expecting expected read) := by
  intro text plain
  unfold Rule.expecting
  rw [steady plain]
  cases read text <;> rfl

theorem literal {word : String} (unbroken : Unbroken word) : Steady (Rule.literal word) := by
  refine expecting _ fun plain => ?_
  rw [isPrefixOf?_narrow unbroken plain, Option.map_map, Option.map_map]
  rfl

theorem keyword {word : String} (unbroken : Unbroken word) : Steady (Rule.keyword word) :=
  expecting _ fun plain => stripFolded_narrow unbroken plain

theorem chars (kind : CharClass) : Steady (Rule.chars kind) := by
  refine expecting _ fun plain => ?_
  obtain ⟨taken, dropped⟩ := span_narrow (accepts_of_mem_ends kind) plain
  rw [taken, dropped]
  split <;> rfl

theorem run (kind : CharClass) : Steady (Rule.run kind.accepts) := by
  intro text plain
  obtain ⟨taken, dropped⟩ := span_narrow (accepts_of_mem_ends kind) plain
  rw [Rule.run, Rule.run, taken, dropped]
  rfl

theorem oneOf (kind : CharClass) : Steady (Rule.oneOf kind) := by
  refine expecting _ fun {text} plain => ?_
  cases text with
  | nil => simp
  | cons c rest =>
    obtain ⟨-, same⟩ | ⟨stop, ends⟩ := narrow_cons_cases (plain c (.head _)) rest
    · rw [same]
      by_cases accepted : kind.accepts c = true <;> simp [accepted]
    · cases narrowed : narrow (c :: rest) with
      | nil => simp [accepts_of_mem_ends kind c stop]
      | cons d more =>
        have other := accepts_of_mem_ends kind d (ends d (by rw [narrowed]; rfl))
        simp [accepts_of_mem_ends kind c stop, other]

theorem quotedText : Steady quotedText := by
  intro text plain
  have missed := result_quote_of_unquoted fun c member => (plain c member).1
  have mark : Steady (Rule.literal "\x22") := literal (by decide)
  have still := mark plain
  rw [missed] at still
  rw [Word.quotedText, result_bind_of_none missed, result_bind_of_none still]
  rfl

theorem notAhead {rule : Rule α} (steady : Steady rule) : Steady (Rule.notAhead rule) := by
  intro text plain
  have ahead := steady plain
  cases found : (rule text).result with
  | none =>
    rw [found] at ahead
    simp [Rule.notAhead, found, ahead]
  | some pair =>
    rw [found] at ahead
    simp [Rule.notAhead, found, ahead]

theorem bind {rule : Rule α} {next : α → Rule β} [Forward rule] (first : Steady rule)
    (second : ∀ value, Steady (next value)) : Steady (rule >>= next) := by
  intro text plain
  have outcome := first plain
  cases found : (rule text).result with
  | none =>
    rw [found] at outcome
    rw [result_bind_of_none found, result_bind_of_none outcome]
    rfl
  | some pair =>
    rw [found] at outcome
    rw [result_bind_of_some found, result_bind_of_some outcome]
    exact second pair.1 fun c member => plain c ((Forward.suffix found).subset member)

theorem orElse {rule other : Rule α} (first : Steady rule) (second : Steady other) :
    Steady (Rule.orElse rule other) := by
  intro text plain
  rw [result_orElse, result_orElse, first plain, second plain]
  cases (rule text).result <;> rfl

/-- Reading behind spaces is steady. -/
theorem strip {rule : Rule α} (steady : Steady rule) {text : List Char}
    (plain : ∀ c ∈ text, Ordinary c) :
    (rule (Rule.strip (narrow text))).result =
      (rule (Rule.strip text)).result.map fun found => (found.1, narrow found.2) := by
  rw [strip_narrow]
  exact steady fun c member => plain c ((strip_suffix text).subset member)

theorem spacedMany {rule : Rule α} [Forward rule] [Consuming rule] (steady : Steady rule) :
    Steady (Rule.spacedMany rule) := by
  intro text
  induction text using repeat_induction fun text => rule (Rule.strip text) with
  | stop text missed =>
    intro plain
    have still := steady.strip plain
    rw [missed] at still
    rw [spacedMany_of_none missed, spacedMany_of_none still]
    rfl
  | idle text value rest found same =>
    have shorter := Consuming.shorter found
    have bound := (strip_suffix text).length_le
    omega
  | step text value rest found shorter ih =>
    intro plain
    have still := steady.strip plain
    rw [found] at still
    have part := (Forward.suffix found).trans (strip_suffix text)
    have less := Nat.lt_of_lt_of_le (Consuming.shorter still) (strip_suffix _).length_le
    rw [spacedMany_of_some found shorter, spacedMany_of_some still less,
      ih fun c member => plain c (part.subset member), Option.map_map, Option.map_map]
    rfl

/-- A rule that is made of words is steady. -/
theorem of_worded {rule : Rule α} (worded : Worded True rule) : Steady rule := by
  induction worded with
  | pure value => exact fun text plain => rfl
  | nil => exact fun text plain => rfl
  | literal unbroken => exact literal unbroken
  | keyword unbroken => exact keyword unbroken
  | chars kind => exact chars kind
  | oneOf kind => exact oneOf kind
  | run kind => exact run kind
  | quotedText => exact quotedText
  | spaces => exact fun text plain => by simp [strip_narrow]
  | notAhead _ ih => exact notAhead ih
  | bind worded _ first second =>
    have := Forward.of_built worded.built
    exact bind first second
  | orElse _ _ first second => exact orElse first second
  | spacedMany worded ih =>
    have := Forward.of_built worded.built
    exact spacedMany ih

end Steady

/-! ### Commands and clauses -/

/-- What is read from a narrowed text is, in some view, what is read from the text, and the text
that is left is narrowed. -/
def Narrowed {α β : Type} (view : α → β) (first second : Option (α × List Char)) : Prop :=
  second.map (fun found => (view found.1, found.2)) =
    first.map fun found => (view found.1, narrow found.2)

/-- What is read has its counterpart. -/
theorem Narrowed.exists_eq_some {α β : Type} {view : α → β} {second : Option (α × List Char)}
    {value : α} {rest : List Char} (narrowed : Narrowed view (some (value, rest)) second) :
    ∃ other, second = some (other, narrow rest) ∧ view other = view value := by
  rw [Narrowed, Option.map_some, Option.map_eq_some_iff] at narrowed
  obtain ⟨⟨other, last⟩, result, equal⟩ := narrowed
  rw [Prod.mk.injEq] at equal
  obtain ⟨like, rfl⟩ := equal
  exact ⟨other, result, like⟩

/-- What is missing is missing from the narrowed text. -/
theorem Narrowed.eq_none {α β : Type} {view : α → β} {second : Option (α × List Char)}
    (narrowed : Narrowed view none second) : second = none :=
  Option.map_eq_none_iff.mp narrowed

/-- A rule that reads the same from a text and from the narrowed text in some view of its values,
and narrows what is left. -/
def SteadyIn {α β : Type} (view : α → β) (rule : Rule α) : Prop :=
  ∀ ⦃text⦄, (∀ c ∈ text, Ordinary c) → Narrowed view (rule text).result (rule (narrow text)).result

namespace SteadyIn

variable {α β : Type} {view : α → β} {rule : Rule α}

/-- A list of what follows is read the same in the view of its elements. -/
theorem followers {separator : String} {d : Char} (single : separator.toList = [d])
    [Forward rule] (steady : SteadyIn view rule) :
    SteadyIn (List.map view) (Rule.followers separator rule) := by
  intro text plain
  induction length : text.length using Nat.strong_induction_on generalizing text with
  | _ size ih =>
    subst length
    have begins : (strip (narrow text)).head? = (strip text).head? := by
      rw [strip_narrow, head?_narrow_strip]
    by_cases front : (strip text).head? = some d
    · have later : ∀ c ∈ passOver d text, Ordinary c := fun c member =>
        plain c ((passOver_suffix text).subset member)
      have step := steady later
      rw [← passOver_narrow] at step
      cases found : (rule (passOver d text)).result with
      | none =>
        rw [found] at step
        rw [result_followers_of_none single found, result_followers_of_none single step.eq_none]
        rfl
      | some pair =>
        obtain ⟨value, rest⟩ := pair
        rw [found] at step
        obtain ⟨other, result, like⟩ := step.exists_eq_some
        have part := (Forward.suffix found).trans (passOver_suffix text)
        have shorter : rest.length < text.length :=
          Nat.lt_of_le_of_lt (Forward.length_le found) (length_passOver_lt front)
        obtain ⟨values, last, more⟩ := exists_result_followers separator rule rest
        have same := ih _ shorter (fun c member => plain c (part.subset member)) rfl
        rw [more] at same
        obtain ⟨others, otherMore, alike⟩ := same.exists_eq_some
        rw [result_followers_of_some single front found, more,
          result_followers_of_some single (begins.trans front) result, otherMore]
        simp [Narrowed, like, alike]
    · rw [result_followers_of_ne single rule front,
        result_followers_of_ne single rule fun same => front (begins.symm.trans same)]
      rfl

/-- A command is read the same in the view of what it does. -/
theorem phrase : SteadyIn Phrase.effect? phrase := by
  intro text plain
  have known : Steady (firstOf (CommandKind.recognized.map phraseOf)) :=
    .of_worded (.firstOf_map fun _ member => .phraseOf member)
  have spaces : ∀ c, isSpace c = true → (c ≠ ';' && c ≠ ',') = true := by
    intro c space
    by_contra separator
    have either : c = ';' ∨ c = ',' := by simpa [or_iff_not_imp_left] using separator
    obtain rfl | rfl := either <;> cases space
  rw [Narrowed, result_phrase, result_phrase, known plain]
  cases (firstOf (CommandKind.recognized.map phraseOf) text).result with
  | some pair => rfl
  | none =>
    rw [Option.map_none, Option.none_or, Option.none_or, result_unrecognized, result_unrecognized,
      dropWhile_narrow spaces]
    rfl

end SteadyIn

/-- No comma is left over after the commands of a clause. -/
theorem result_morePhrases (text : List Char) :
    (morePhrases text).result = (followers "," phrase text).result := by
  have single : ("," : String).toList = [','] := rfl
  induction length : text.length using Nat.strong_induction_on generalizing text with
  | _ size ih =>
    subst length
    by_cases front : (strip text).head? = some ','
    · obtain ⟨value, rest, found⟩ := exists_result_phrase (passOver ',' text)
      have shorter : rest.length < text.length :=
        Nat.lt_of_le_of_lt (Forward.length_le found) (length_passOver_lt front)
      rw [result_morePhrases_of_eq front found, ih _ shorter rest rfl,
        result_followers_of_some single front found]
    · rw [result_morePhrases_of_ne front, result_followers_of_ne single phrase front]

namespace SteadyIn

/-- A clause is read the same in the view of what its commands do. -/
theorem clause : SteadyIn Clause.effects clause := by
  intro text plain
  have steady : Steady Grammar.trigger := .of_worded .trigger
  have start := steady plain
  cases first : (Grammar.trigger text).result with
  | none =>
    rw [first] at start
    rw [result_clause_of_none first, result_clause_of_none start]
    rfl
  | some pair =>
    obtain ⟨trigger, middle⟩ := pair
    rw [first] at start
    have inner : strip middle ⊆ text :=
      ((strip_suffix middle).trans (Forward.suffix first)).subset
    obtain ⟨value, rest, found⟩ := exists_result_phrase (strip middle)
    have next := phrase fun c member => plain c (inner member)
    rw [found, ← strip_narrow] at next
    obtain ⟨other, result, like⟩ := next.exists_eq_some
    obtain ⟨values, last, more⟩ := exists_result_followers "," Grammar.phrase rest
    have single : ("," : String).toList = [','] := rfl
    have later := followers single phrase fun c member =>
      plain c (inner ((Forward.suffix found).subset member))
    rw [more] at later
    obtain ⟨others, otherMore, alike⟩ := later.exists_eq_some
    rw [result_clause_of_some first found, result_clause_of_some start result, result_morePhrases,
      result_morePhrases, more, otherMore]
    simp [Narrowed, Clause.effects, like, alike]

end SteadyIn

/-! ### Sources -/

/-- Lists of clauses with the same effects are read from a text and from the narrowed text, and
what is left closes both or neither. -/
theorem exists_result_separated_narrow {text rest : List Char} {values : List Clause}
    (plain : ∀ c ∈ text, Ordinary c)
    (list : (separated ";" clause text).result = some (values, rest)) :
    ∃ others last, (separated ";" clause (narrow (strip text))).result = some (others, last) ∧
      others.map Clause.effects = values.map Clause.effects ∧ (Closes last ↔ Closes rest) := by
  have calm : ∀ c ∈ strip text, Ordinary c := fun c member =>
    plain c ((strip_suffix text).subset member)
  have first : Narrowed Clause.effects (clause (strip text)).result
      (clause (strip (narrow (strip text)))).result := by
    rw [strip_narrow, strip_strip]
    exact SteadyIn.clause calm
  cases found : (clause (strip text)).result with
  | none =>
    rw [found] at first
    rw [result_separated_of_none found] at list
    cases list
    refine ⟨[], _, result_separated_of_none first.eq_none, rfl, ?_⟩
    rw [closes_narrow, closes_congr (strip_strip text)]
  | some pair =>
    obtain ⟨value, middle⟩ := pair
    rw [found] at first
    obtain ⟨other, result, like⟩ := first.exists_eq_some
    obtain ⟨more, ending, follow⟩ := exists_result_followers ";" clause middle
    have single : (";" : String).toList = [';'] := rfl
    have later := SteadyIn.followers single SteadyIn.clause fun c member =>
      calm c ((Forward.suffix found).subset member)
    rw [follow] at later
    obtain ⟨others, otherFollow, alike⟩ := later.exists_eq_some
    rw [result_separated_of_some found, follow] at list
    cases list
    refine ⟨other :: others, narrow ending, ?_, ?_, closes_narrow ending⟩
    · rw [result_separated_of_some result, otherFollow]
      rfl
    · rw [List.map_cons, List.map_cons, like, alike]

/-- A text and the narrowed text are read as clauses with the same effects, or both rejected. -/
theorem map_effects_read_narrow {text : List Char} (plain : ∀ c ∈ text, Ordinary c) :
    (read (narrow (strip text))).toOption.map (List.map Clause.effects) =
      (read text).toOption.map (List.map Clause.effects) := by
  have missing {text : List Char} (never : ∀ found, read text ≠ .ok found) :
      (read text).toOption = none := by
    cases result : read text with
    | ok found => exact absurd result (never found)
    | error failure => rfl
  obtain ⟨values, rest, list⟩ := exists_result_separated ";" clause text
  obtain ⟨others, last, otherList, alike, closing⟩ := exists_result_separated_narrow plain list
  by_cases closes : Closes rest
  · rw [read_eq_ok_iff.mpr ⟨rest, list, closes⟩,
      read_eq_ok_iff.mpr ⟨last, otherList, closing.mpr closes⟩]
    exact congrArg some alike
  · rw [missing (read_ne_ok list closes),
      missing (read_ne_ok otherList fun closed => closes (closing.mp closed))]

end Grammar

open Grammar Rule

/-- A source without the spaces around separators and at its ends, and with one space for every
other run of spaces. -/
def narrowed (source : String) : String := String.ofList (narrow (strip source.toList))

/-- A source without stray controls has none when it is narrowed. -/
theorem clean_narrowed {source : String} (tidy : ∀ c ∈ source.toList, isStray c = false) :
    clean (narrowed source).toList = narrow (strip (clean source.toList)) := by
  rw [clean_of_forall tidy, narrowed, String.toList_ofList]
  refine clean_of_forall fun c member => ?_
  obtain inside | rfl := mem_narrow c member
  · exact tidy c ((strip_suffix _).subset inside)
  · decide

/-- What is read from a source is what its clauses do, merged. -/
theorem toOption_tryParse (source : String) :
    (tryParse source).toOption =
      ((read (clean source.toList)).toOption.map (List.map Clause.effects)).map mergeActions := by
  unfold tryParse parseRaw
  dsimp only
  cases read (clean source.toList) with
  | ok clauses => exact congrArg some (mergeActions_effects clauses).symm
  | error failure => rfl

/-- Sources of which the same is read are accepted alike and stand for the same actions. -/
theorem parse_of_toOption {first second : String}
    (same : (tryParse first).toOption = (tryParse second).toOption) :
    (tryParse first).isOk = (tryParse second).isOk ∧ parse first = parse second := by
  have accepted (source : String) :
      (tryParse source).isOk = (tryParse source).toOption.isSome := by
    cases tryParse source <;> rfl
  have actions (source : String) : parse source = (tryParse source).toOption.getD ∅ := by
    unfold parse
    cases tryParse source <;> rfl
  rw [accepted, accepted, actions, actions, same]
  exact ⟨rfl, rfl⟩

/-- Spaces do not matter outside quotes: a source without double quotes and stray controls, in which
the only spaces are blanks, is accepted when it is with narrow spaces, and both stand for the same
actions. -/
theorem parse_narrowed {source : String}
    (plain : ∀ c ∈ source.toList, isStray c = false ∧ c ≠ '\x22' ∧ (isSpace c = true → c = ' ')) :
    (tryParse (narrowed source)).isOk = (tryParse source).isOk ∧
      parse (narrowed source) = parse source := by
  have tidy : ∀ c ∈ source.toList, isStray c = false := fun c member => (plain c member).1
  have ordinary : ∀ c ∈ clean source.toList, Ordinary c := fun c member =>
    (plain c (List.mem_of_mem_filter member)).2
  apply parse_of_toOption
  rw [toOption_tryParse, toOption_tryParse, clean_narrowed tidy, map_effects_read_narrow ordinary]

/-- Runs of spaces around separators, within a command, and in a command that is not recognised. -/
theorem parse_narrowed_create :
    narrowed "  create  sign  bcolor=red ,, foo   bar ; bump  move 1   2 ;  " =
        "create sign bcolor=red,,foo bar;bump move 1 2;" ∧
      (tryParse (narrowed "  create  sign  bcolor=red ,, foo   bar ; bump  move 1   2 ;  ")).isOk =
        (tryParse "  create  sign  bcolor=red ,, foo   bar ; bump  move 1   2 ;  ").isOk ∧
      parse (narrowed "  create  sign  bcolor=red ,, foo   bar ; bump  move 1   2 ;  ") =
        parse "  create  sign  bcolor=red ,, foo   bar ; bump  move 1   2 ;  " :=
  ⟨by decide +kernel, parse_narrowed (by decide)⟩

end ActionString
