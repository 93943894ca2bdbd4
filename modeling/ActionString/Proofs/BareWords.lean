import ActionString.Proofs.Consuming
import ActionString.Proofs.Heads
import ActionString.Proofs.Schema

/-!
# Words that stand alone

After some commands a path or the name of an object may stand alone. The words for the flags of a
command are tried first, and not as whole words: so a word that stands alone is kept as one value
exactly when it begins with none of them.
-/

namespace ActionString

open Grammar Rule Word

namespace CommandKind

/-- The kinds of commands that turn something on or off. -/
def switches : List CommandKind := [solid, visible]

/-- The words that are flags of a command by themselves. -/
def flagWords : CommandKind → List String
  | sound => ["loop", "noloop"]
  | noise => ["overlap"]
  | solid | visible => ["on", "true", "yes", "off", "false", "no"]
  | _ => []

end CommandKind

/-- A word that may stand alone after a command: the name of an object after a switch, and a path
without an equals sign after the others. -/
def Bare : CommandKind → String → Prop
  | .solid, word | .visible, word => Made CharClass.objectName.accepts word
  | _, word => Made CharClass.resourcePath.accepts word ∧ '=' ∉ word.toList

/-- The field that a word stands for which stands alone. -/
def bareField : CommandKind → String → String × Value
  | .solid, word | .visible, word => ("targetName", .text (Text.lowercase word))
  | kind, word => (kind.word, .text word)

/-- The argument that a word is read as which stands alone. -/
def bareArgument : CommandKind → String → Argument
  | .solid, word | .visible, word => .target word
  | _, word => .resource word

/-- The class of the characters of a word that stands alone. -/
def bareClass : CommandKind → CharClass
  | .solid | .visible => .objectName
  | _ => .resourcePath

/-- The argument that the word of a flag is read as. -/
def flagArgument : CommandKind → String → Argument
  | .sound, word => .status .loops word
  | .noise, word => .status .overlap word
  | _, word => .answer word

/-- A word that stands alone is made of characters of its class. -/
theorem Bare.made {kind : CommandKind} {word : String} (bare : Bare kind word) :
    Made (bareClass kind).accepts word := by
  cases kind
  case solid | visible => exact bare
  all_goals exact bare.1

/-- A word that stands alone has no equals sign. -/
theorem Bare.plain {kind : CommandKind} {word : String} (bare : Bare kind word) :
    '=' ∉ word.toList := by
  cases kind
  case solid | visible => exact fun member => absurd (bare.2 '=' member) (by decide)
  all_goals exact bare.2

/-- A character of a word that stands alone is no space. -/
theorem Bare.not_isSpace {kind : CommandKind} {word : String} (bare : Bare kind word) :
    ∀ c ∈ word.toList, isSpace c = false := by
  intro c member
  have refused : ∀ n < 33, (bareClass kind).accepts (Char.ofNat n) = false := by
    have classes : ∀ group ∈ [CharClass.objectName, .resourcePath], ∀ n < 33,
        group.accepts (Char.ofNat n) = false := by decide
    refine classes _ ?_
    cases kind <;> decide
  rw [Bool.eq_false_iff]
  intro space
  have never := refused_of_isSpace refused space
  rw [bare.made.2 c member] at never
  cases never

namespace Grammar

/-- The rule for the words of flags. -/
def flagRule (kind : CommandKind) : Rule Argument :=
  make (flagArgument kind) (firstOf (kind.flagWords.map literal))

/-- The rule for a word that stands alone. -/
def bareRule (kind : CommandKind) : Rule Argument :=
  make (bareArgument kind) (chars (bareClass kind))

/-- A rule that applies to no word without an equals sign. -/
def Keyed {α : Type} (rule : Rule α) : Prop :=
  ∀ ⦃front tail⦄, '=' ∉ front → Ends tail → (rule (front ++ tail)).result = none

/-- A parameter has an equals sign after a fixed text. -/
theorem Keyed.literal {β : Type} {word : String} (spare : ∀ c ∈ [' ', ',', ';'], c ∉ word.toList)
    (next : List Char → List Char → Rule β) :
    Keyed (Rule.literal word >>= fun value => Rule.literal "=" >>= next value) :=
  fun _ _ plain ends => result_assign_of_plain next plain ends (literal_within spare ends)

/-- A parameter has an equals sign after a keyword. -/
theorem Keyed.keyword {β : Type} {word : String}
    (spare : ∀ c ∈ [' ', ',', ';'], c.toLower ∉ word.toList.map Char.toLower)
    (next : List Char → List Char → Rule β) :
    Keyed (Rule.keyword word >>= fun value => Rule.literal "=" >>= next value) :=
  fun _ _ plain ends => result_assign_of_plain next plain ends (keyword_within spare ends)

theorem keyed_mask : Keyed Argument.mask := .keyword (by decide) _

theorem keyed_tag : Keyed Argument.tag := .literal (by decide) _

theorem keyed_name : Keyed Argument.name := .literal (by decide) _

theorem keyed_radius : Keyed Argument.radius := .keyword (by decide) _

/-- Parameters are passed over in front of a word without an equals sign. -/
theorem result_firstOf_of_keyed {α : Type} {rules : List (Rule α)} (others : List (Rule α))
    (keyed : ∀ rule ∈ rules, Keyed rule) {front tail : List Char} (plain : '=' ∉ front)
    (ends : Ends tail) :
    (firstOf (rules ++ others) (front ++ tail)).result =
      (firstOf others (front ++ tail)).result := by
  rw [result_firstOf_append, result_firstOf_of_none fun rule member => keyed rule member plain ends,
    Option.none_or]

/-- A command takes words: in front of a word without an equals sign its arguments are the words of
flags, and then words that stand alone. -/
structure TakesWords (kind : CommandKind) (rule : Rule Argument) : Prop where
  known : kind ∈ CommandKind.recognized
  shape : phraseOf kind = withArguments kind rule
  missed : (rule []).result = none
  [forward : Forward rule]
  [consuming : Consuming rule]
  blind : Blind (· ≠ '\x22') .both rule
  result : ∀ ⦃front tail⦄, '=' ∉ front → Ends tail → (rule (front ++ tail)).result =
    (flagRule kind (front ++ tail)).result.or (bareRule kind (front ++ tail)).result

/-- Where there are no flags, a choice of parameters and a path is the path. -/
theorem result_of_unflagged {kind : CommandKind} (unflagged : kind.flagWords = [])
    (path : bareRule kind = Argument.resource) (rules : List (Rule Argument))
    (keyed : ∀ rule ∈ rules, Keyed rule) {front tail : List Char} (plain : '=' ∉ front)
    (ends : Ends tail) : (firstOf (rules ++ [Argument.resource]) (front ++ tail)).result =
      (flagRule kind (front ++ tail)).result.or (bareRule kind (front ++ tail)).result := by
  have none : (flagRule kind (front ++ tail)).result = none := by
    rw [flagRule, unflagged]
    rfl
  rw [result_firstOf_of_keyed _ keyed plain ends, result_firstOf_cons, none, path]
  simp

theorem takesWords_texture : TakesWords .texture Argument.texture where
  known := by decide
  shape := rfl
  missed := rfl
  blind := .of_worded .texture
  result _ _ := result_of_unflagged rfl rfl [Argument.mask, Argument.tag, Argument.name]
    (by simp [keyed_mask, keyed_tag, keyed_name])

theorem takesWords_corona : TakesWords .corona Argument.corona where
  known := by decide
  shape := rfl
  missed := rfl
  blind := .of_worded .corona
  result _ _ :=
    have size : Keyed (Argument.numberParameter (literal "size")) := .literal (by decide) _
    result_of_unflagged rfl rfl
      [Argument.mask, Argument.numberParameter (literal "size"), Argument.name]
      (by simp [keyed_mask, size, keyed_name])

theorem takesWords_picture : TakesWords .picture Argument.picture where
  known := by decide
  shape := rfl
  missed := rfl
  blind := .of_worded .picture
  result _ _ :=
    have update : Keyed (Argument.integerParameter (literal "update")) := .literal (by decide) _
    result_of_unflagged rfl rfl [Argument.integerParameter (literal "update"), Argument.name]
      (by simp [update, keyed_name])

theorem takesWords_media : TakesWords .media Argument.media where
  known := by decide
  shape := rfl
  missed := rfl
  blind := .of_worded .media
  result _ _ := result_of_unflagged rfl rfl [Argument.name, Argument.radius]
    (by simp [keyed_name, keyed_radius])

theorem takesWords_url : TakesWords .url Argument.url where
  known := by decide
  shape := rfl
  missed := rfl
  blind := .of_worded .url
  result _ _ :=
    have target : Keyed (Argument.parameter (keyword "target") (keyword "aw_3d") .word) :=
      .keyword (by decide) _
    result_of_unflagged rfl rfl [Argument.parameter (keyword "target") (keyword "aw_3d") .word]
      (by simp [target])

theorem takesWords_sound : TakesWords .sound Argument.sound where
  known := by decide
  shape := rfl
  missed := rfl
  blind := .of_worded .sound
  result front tail plain ends := by
    have passed := result_firstOf_of_keyed [Argument.status .loops, Argument.resource]
      (List.forall_mem_singleton.mpr keyed_name) plain ends
    rw [result_firstOf_cons, result_firstOf_cons, result_firstOf_nil, Option.or_none] at passed
    exact passed

theorem takesWords_noise : TakesWords .noise Argument.noise where
  known := by decide
  shape := rfl
  missed := rfl
  blind := .of_worded .noise
  result front tail _ _ := by
    have flag : (flagRule .noise (front ++ tail)).result =
        (Argument.status .overlap (front ++ tail)).result := by
      rw [flagRule, make, result_bind, CommandKind.flagWords, List.map_cons, List.map_nil,
        result_firstOf_cons, result_firstOf_nil, Option.or_none]
      exact (result_bind (literal "overlap")
        (fun word => pure (flagArgument .noise (String.ofList word))) _).symm
    rw [Argument.noise, result_firstOf_cons, result_firstOf_cons, result_firstOf_nil,
      Option.or_none, flag]
    rfl

/-- A choice of an answer and the name of an object takes words. -/
theorem result_switch (text : List Char) :
    (Argument.switch text).result =
      (make .answer answer text).result.or (Argument.target text).result := by
  rw [Argument.switch, result_firstOf_cons, result_firstOf_cons, result_firstOf_nil, Option.or_none]

theorem takesWords_solid : TakesWords .solid Argument.switch where
  known := by decide
  shape := rfl
  missed := rfl
  blind := .of_worded .switch
  result _ _ _ _ := result_switch _

theorem takesWords_visible : TakesWords .visible Argument.switch where
  known := by decide
  shape := rfl
  missed := rfl
  blind := .of_worded .switch
  result _ _ _ _ := result_switch _

/-- The commands with a path and the switches take words. -/
theorem exists_takesWords {kind : CommandKind}
    (known : kind ∈ CommandKind.withResource ++ CommandKind.switches) :
    ∃ rule, TakesWords kind rule := by
  cases kind
  case texture => exact ⟨_, takesWords_texture⟩
  case sound => exact ⟨_, takesWords_sound⟩
  case corona => exact ⟨_, takesWords_corona⟩
  case solid => exact ⟨_, takesWords_solid⟩
  case visible => exact ⟨_, takesWords_visible⟩
  case noise => exact ⟨_, takesWords_noise⟩
  case picture => exact ⟨_, takesWords_picture⟩
  case media => exact ⟨_, takesWords_media⟩
  case url => exact ⟨_, takesWords_url⟩
  all_goals exact absurd known (by decide)

/-- A fixed text is missed where it does not stand. -/
theorem result_literal_eq_none_iff {word : String} {text : List Char} :
    (literal word text).result = none ↔ ¬word.toList <+: text := by
  constructor
  · rintro missed ⟨rest, rfl⟩
    rw [result_literal] at missed
    cases missed
  · intro other
    cases found : (literal word text).result with
    | none => rfl
    | some pair => exact absurd ⟨_, (eq_append_of_result_literal found).2.symm⟩ other

/-- A choice of fixed texts is missed where none of them stands. -/
theorem result_firstOf_literal_eq_none_iff {words : List String} {text : List Char} :
    (firstOf (words.map literal) text).result = none ↔
      ∀ word ∈ words, ¬word.toList <+: text := by
  induction words with
  | nil => simp
  | cons word words ih =>
    rw [List.map_cons, result_firstOf_cons, Option.or_eq_none_iff, result_literal_eq_none_iff, ih,
      List.forall_mem_cons]

/-- A choice of fixed texts reads one of them. -/
theorem mem_of_result_firstOf_literal {words : List String} {text value rest : List Char}
    (found : (firstOf (words.map literal) text).result = some (value, rest)) :
    String.ofList value ∈ words := by
  induction words with
  | nil => cases found
  | cons word words ih =>
    rw [List.map_cons, result_firstOf_cons, Option.or_eq_some_iff] at found
    obtain first | ⟨-, later⟩ := found
    · rw [(eq_append_of_result_literal first).1, String.ofList_toList]
      exact .head _
    · exact .tail _ (ih later)

/-- No flag is read where none of the words of flags stands. -/
theorem result_flagRule_of_none {kind : CommandKind} {text : List Char}
    (other : ∀ flag ∈ kind.flagWords, ¬flag.toList <+: text) :
    (flagRule kind text).result = none :=
  result_bind_of_none (result_firstOf_literal_eq_none_iff.mpr other) _

/-- A flag is read where one of the words of flags stands. -/
theorem exists_result_flagRule {kind : CommandKind} {text : List Char} {flag : String}
    (listed : flag ∈ kind.flagWords) (front : flag.toList <+: text) :
    ∃ read ∈ kind.flagWords, ∃ rest,
      (flagRule kind text).result = some (flagArgument kind read, rest) := by
  cases found : (firstOf (kind.flagWords.map literal) text).result with
  | none => exact absurd front (result_firstOf_literal_eq_none_iff.mp found flag listed)
  | some pair =>
    refine ⟨_, mem_of_result_firstOf_literal found, pair.2, ?_⟩
    rw [flagRule, make, result_bind_of_some found]
    rfl

/-- A word that stands alone is read to its end. -/
theorem result_bareRule {kind : CommandKind} {word tail : List Char} (nonempty : word ≠ [])
    (made : ∀ c ∈ word, (bareClass kind).accepts c = true) (ends : Ends tail) :
    (bareRule kind (word ++ tail)).result =
      some (bareArgument kind (String.ofList word), tail) := by
  have refused : ∀ c ∈ [' ', ',', ';'], (bareClass kind).accepts c = false := by
    have classes : ∀ group ∈ [CharClass.objectName, .resourcePath], ∀ c ∈ [' ', ',', ';'],
        group.accepts c = false := by decide
    exact classes _ (by cases kind <;> decide)
  rw [bareRule, make, result_bind_of_some (result_chars nonempty made (ends.refused refused))]
  rfl

/-- The end of a text is an end. -/
theorem Ends.nil : Ends [] := fun _ member => by cases member

namespace TakesWords

variable {kind : CommandKind} {rule : Rule Argument} {word : String}

/-- Words that are read as arguments spell a command. -/
theorem spells (takes : TakesWords kind rule) {items : List (List Char × Argument)}
    (each : ∀ item ∈ items, Reads rule item.1 item.2) :
    Spells (kind.word.toList ++ items.flatMap fun item => ' ' :: item.1)
      (.arguments kind (items.map Prod.snd)) :=
  .of_words takes.known takes.shape takes.blind takes.missed each

/-- A word that begins with no flag is read as one argument. -/
theorem reads (takes : TakesWords kind rule) (bare : Bare kind word)
    (whole : ∀ flag ∈ kind.flagWords, ¬flag.toList <+: word.toList) :
    Reads rule word.toList (bareArgument kind word) := by
  constructor
  · obtain ⟨c, rest, front⟩ := List.exists_cons_of_ne_nil bare.made.1
    exact ⟨c, rest, front, bare.not_isSpace c (by rw [front]; exact .head _)⟩
  · intro tail ends
    have spare : ∀ flag ∈ kind.flagWords, ∀ c ∈ [' ', ',', ';'], c ∉ flag.toList := by
      cases kind <;> decide
    -- No flag reaches past the end of the word, since none has a separator in it.
    have unflagged : (flagRule kind (word.toList ++ tail)).result = none := by
      refine result_flagRule_of_none fun flag listed front => whole flag listed ?_
      obtain ⟨rest, same⟩ := front
      obtain ⟨inner, split, -⟩ := exists_eq_append_of_spare same.symm ends (spare flag listed)
      exact ⟨inner, split.symm⟩
    rw [takes.result bare.plain ends, unflagged, Option.none_or,
      result_bareRule bare.made.1 bare.made.2 ends, String.ofList_toList]

/-- A word that begins with a flag is read as a flag and more arguments. -/
theorem exists_torn (takes : TakesWords kind rule) (bare : Bare kind word) {flag : String}
    (listed : flag ∈ kind.flagWords) (front : flag.toList <+: word.toList) :
    ∃ read ∈ kind.flagWords, ∃ more,
      (phrase (kind.word.toList ++ (' ' :: word.toList))).result =
        some (.arguments kind (flagArgument kind read :: more), []) := by
  have := takes.forward
  have := takes.consuming
  have plain {text : List Char} (part : text <:+ word.toList) : '=' ∉ text := fun member =>
    bare.plain (part.subset member)
  have result {text : List Char} (part : text <:+ word.toList) : (rule text).result =
      (flagRule kind text).result.or (bareRule kind text).result := by
    have both := takes.result (plain part) Ends.nil
    rwa [List.append_nil] at both
  obtain ⟨read, known, rest, found⟩ := exists_result_flagRule listed front
  have first : (rule word.toList).result = some (flagArgument kind read, rest) := by
    rw [result (List.suffix_refl _), found, Option.some_or]
  have part := Forward.suffix first
  -- Whatever is left of the word is read as some argument again, so the word is read to its end.
  obtain ⟨more, others⟩ : ∃ more, (spacedMany rule rest).result = some (more, []) := by
    refine Consuming.exists_result_spacedMany fun c last within => ?_
    have inside := within.trans part
    refine ⟨bare.not_isSpace c (inside.subset (.head _)), ?_⟩
    have made : ∀ d ∈ c :: last, (bareClass kind).accepts d = true := fun d member =>
      bare.made.2 d (inside.subset member)
    have alone := result_bareRule (List.cons_ne_nil c last) made Ends.nil
    rw [List.append_nil] at alone
    rw [result inside, alone]
    cases (flagRule kind (c :: last)).result with
    | none => exact ⟨_, _, rfl⟩
    | some pair => exact ⟨_, _, rfl⟩
  have stripped : strip (' ' :: word.toList) = word.toList := by
    obtain ⟨c, after, same⟩ := List.exists_cons_of_ne_nil bare.made.1
    rw [strip_cons_of_isSpace (by decide), same,
      strip_cons_of_not (bare.not_isSpace c (by rw [same]; exact .head _))]
  have shorter : rest.length < (' ' :: word.toList).length :=
    Nat.lt_succ_of_lt (Consuming.shorter first)
  have both : (spacedMany rule (' ' :: word.toList)).result =
      some (flagArgument kind read :: more, []) := by
    rw [spacedMany_of_some (by rw [stripped, first]) shorter, others]
    rfl
  refine ⟨read, known, more, result_phrase_of_word takes.known ?_⟩
  rw [takes.shape, withArguments, result_bind_of_some (result_keyword_of_same rfl _),
    result_bind_of_some both]
  rfl

end TakesWords

end Grammar

/-- A word that stands alone stands for the command with one field. -/
theorem command?_bare (kind : CommandKind) (word : String) :
    (Phrase.arguments kind [bareArgument kind word]).command? =
      some ⟨kind, ⟨[bareField kind word]⟩⟩ := by
  have fresh : kind.word ∉ ["resource"] := by cases kind <;> decide
  have path : (Phrase.arguments kind [.resource word]).command? =
      some ⟨kind, ⟨[(kind.word, .text word)]⟩⟩ :=
    command?_arguments_of_resource rfl (List.nodup_singleton _) fresh
  have target : (Phrase.arguments kind [.target word]).command? =
      some ⟨kind, ⟨namedAfter kind [("targetName", .text (Text.lowercase word))]⟩⟩ :=
    command?_arguments_of_nodup kind (List.nodup_singleton _)
  cases kind
  case solid | visible => exact target
  all_goals exact path

/-- A flag is for another field than a word that stands alone. -/
theorem exists_field_of_flag {kind : CommandKind} {read : String} (known : read ∈ kind.flagWords)
    (word : String) :
    ∃ field, (flagArgument kind read).field? = some field ∧ field.1 ≠ "resource" ∧
      field.1 ≠ (bareField kind word).1 := by
  have loops : "loop" ≠ "resource" ∧ "loop" ≠ "sound" := by decide
  have overlap : "overlap" ≠ "resource" ∧ "overlap" ≠ "noise" := by decide
  have value : "value" ≠ "resource" ∧ "value" ≠ "targetName" := by decide
  have meant : ∀ answer ∈ CommandKind.solid.flagWords, (Meaning.answer? answer).isSome = true := by
    decide
  have switch (listed : read ∈ CommandKind.solid.flagWords) : ∃ field,
      (Argument.answer read).field? = some field ∧ field.1 ≠ "resource" ∧
        field.1 ≠ "targetName" := by
    obtain ⟨on, same⟩ := Option.isSome_iff_exists.mp (meant read listed)
    exact ⟨("value", .bool on), by rw [Argument.field?, same]; rfl, value⟩
  cases kind
  case sound => exact ⟨_, rfl, loops⟩
  case noise => exact ⟨_, rfl, overlap⟩
  case solid | visible => exact switch known
  all_goals cases known

/-- A command with a flag is another one than the command of a word that stands alone. -/
theorem command?_flag_ne {kind : CommandKind} {read : String} (known : read ∈ kind.flagWords)
    (more : List Argument) (word : String) :
    (Phrase.arguments kind (flagArgument kind read :: more)).command? ≠
      some ⟨kind, ⟨[bareField kind word]⟩⟩ := by
  obtain ⟨field, stands, noResource, other⟩ := exists_field_of_flag known word
  have fields : (flagArgument kind read :: more).filterMap Argument.field? =
      field :: more.filterMap Argument.field? := List.filterMap_cons_some stands
  by_cases distinct : (((flagArgument kind read :: more).filterMap Argument.field?).map
      Prod.fst).Nodup
  · rw [command?_arguments_of_nodup kind distinct, fields]
    intro same
    simp only [Option.some.injEq, Command.mk.injEq, OrderedMap.mk.injEq, true_and] at same
    have member := mem_namedAfter kind (List.mem_cons_self (a := field)
      (l := more.filterMap Argument.field?)) noResource
    rw [same, List.mem_singleton] at member
    exact other (congrArg Prod.fst member)
  · rw [command?_arguments_of_not_nodup kind distinct]
    exact fun same => nomatch same

/-- A source with a word that stands alone is cleaned to itself. -/
theorem clean_bare {kind : CommandKind} {word : String} (bare : Bare kind word) :
    clean ("create " ++ kind.word ++ " " ++ word).toList =
      Trigger.create.word.toList ++ (' ' :: (kind.word.toList ++ (' ' :: word.toList))) := by
  have command : (kind.word ++ " " ++ word).toList = kind.word.toList ++ (' ' :: word.toList) := by
    simp
  have source : "create " ++ kind.word ++ " " ++ word =
      "create " ++ (kind.word ++ " " ++ word) := by
    simp only [String.append_assoc]
  have each : ∀ item ∈ [(word.toList, bareArgument kind word)], Tidy item.1 := by
    refine List.forall_mem_singleton.mpr (bare.made.tidy ?_)
    cases kind <;> decide
  have tidy := tidy_words kind each
  rw [List.flatMap_singleton, ← command] at tidy
  rw [source, clean_create tidy, command]

/-- A word that stands alone is kept as the one value of its command exactly when it begins with
none of the words for the flags of the command. -/
theorem parse_bare_iff {kind : CommandKind} {word : String}
    (known : kind ∈ CommandKind.withResource ++ CommandKind.switches) (bare : Bare kind word) :
    parse ("create " ++ kind.word ++ " " ++ word) =
        ⟨[(.create, [⟨kind, ⟨[bareField kind word]⟩⟩])]⟩ ↔
      ∀ flag ∈ kind.flagWords, ¬flag.toList <+: word.toList := by
  obtain ⟨rule, takes⟩ := exists_takesWords known
  have text := clean_bare bare
  have front (rest : List Char) :
      strip (' ' :: (kind.word.toList ++ rest)) = kind.word.toList ++ rest := by
    rw [strip_cons_of_isSpace (by decide), ((solid_kind rfl).append rest).strip]
  constructor
  · intro single flag listed begins
    obtain ⟨read, flags, more, found⟩ := takes.exists_torn bare listed begins
    rw [← front] at found
    exact command?_flag_ne flags more word
      ((parse_eq_single_iff (parseRaw_single text found)).mp single).1
  · intro whole
    have each : ∀ item ∈ [(word.toList, bareArgument kind word)], Reads rule item.1 item.2 :=
      List.forall_mem_singleton.mpr (takes.reads bare whole)
    have found := (takes.spells each).result Stops.at_nil
    rw [List.append_nil, List.flatMap_singleton, ← front] at found
    refine (parse_eq_single_iff (parseRaw_single text found)).mpr ⟨command?_bare kind word, ?_⟩
    have recognized : kind ≠ .invalid := (CommandKind.mem_recognized_iff kind).mp takes.known
    simp [Command.survives, recognized, Command.isEmpty, OrderedMap.isEmpty]

/-- A path with the word of a flag inside is kept as one value. -/
theorem parse_bare_iff_inside :
    Bare .sound "the.loop" ∧ parse "create sound the.loop" =
      ⟨[(.create, [⟨.sound, ⟨[("sound", .text "the.loop")]⟩⟩])]⟩ := by
  have bare : Bare .sound "the.loop" := ⟨by decide, by decide⟩
  exact ⟨bare, (parse_bare_iff (by decide) bare).mpr (by decide)⟩

/-- A path that begins with the word of a flag is no flag, but it is torn apart: the flag is set, and
what comes after it is taken for the path. So is the name of an object that begins with an answer. -/
theorem parse_torn_loopy :
    (Bare .sound "loopy" ∧ "loopy" ∉ CommandKind.sound.flagWords ∧
      parse "create sound loopy" =
        ⟨[(.create, [⟨.sound, ⟨[("loop", .bool true), ("sound", .text "y")]⟩⟩])]⟩) ∧
      Bare .solid "north" ∧ "north" ∉ CommandKind.solid.flagWords ∧
        parse "create solid north" =
          ⟨[(.create, [⟨.solid, ⟨[("value", .bool false), ("targetName", .text "rth")]⟩⟩])]⟩ := by
  have paths : Bare .sound "loopy" := ⟨by decide, by decide⟩
  have names : Made CharClass.objectName.accepts "north" := by decide
  have sound : read (clean "create sound loopy".toList) =
      .ok [⟨.create, [.arguments .sound [.status .loops "loop", .resource "y"]]⟩] := by
    decide +kernel
  have solid : read (clean "create solid north".toList) =
      .ok [⟨.create, [.arguments .solid [.answer "no", .target "rth"]]⟩] := by
    decide +kernel
  refine ⟨⟨paths, by decide, ?_⟩, names, by decide, ?_⟩
  · exact (parse_eq_single_iff (parseRaw_eq_ok_iff.mpr ⟨_, sound, rfl⟩)).mpr (by decide +kernel)
  · exact (parse_eq_single_iff (parseRaw_eq_ok_iff.mpr ⟨_, solid, rfl⟩)).mpr (by decide +kernel)

end ActionString
