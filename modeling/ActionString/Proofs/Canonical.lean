import ActionString.Proofs.BlindRules
import ActionString.Proofs.Reading
import ActionString.Proofs.Resolution
import ActionString.Proofs.Words

/-!
# Canonical texts

A canonical text is printed from items: textures, texts, sequences and examinations. Whatever the
names in it look like, each word is read as the argument that it was printed for, and reading the
text gives back the items.
-/

namespace ActionString

open Grammar Rule Word

/-- A command that can be printed. -/
inductive Item where
  | texture (path : String) (mask : Option String) (tag : Option UInt64) (target : Option String)
  | say (text : String)
  | seq (name : String) (loops : Option Bool)
  | examine
  deriving DecidableEq, Repr

/-- A word made of one or more characters that satisfy a condition. -/
def Made (accepts : Char → Bool) (word : String) : Prop :=
  word.toList ≠ [] ∧ ∀ c ∈ word.toList, accepts c = true

/-- A word of characters among which there are no spaces begins with none. -/
theorem Made.solid {accepts : Char → Bool} {word : String} (made : Made accepts word)
    (refused : ∀ n < 33, accepts (Char.ofNat n) = false) :
    ∃ c rest, word.toList = c :: rest ∧ isSpace c = false := by
  cases front : word.toList with
  | nil => exact absurd front made.1
  | cons c rest =>
    refine ⟨c, rest, rfl, ?_⟩
    rw [Bool.eq_false_iff]
    intro space
    have never := refused_of_isSpace refused space
    rw [made.2 c (by rw [front]; exact .head _)] at never
    cases never

instance (accepts : Char → Bool) (word : String) : Decidable (Made accepts word) :=
  inferInstanceAs (Decidable (_ ∧ _))

namespace Item

/-- The words of an item. -/
def words : Item → List String
  | texture path mask tag target =>
    ["texture", path] ++ mask.toList.map (fun mask => "mask=" ++ mask) ++
      tag.toList.map (fun tag => "tag=" ++ toString tag.toNat) ++
      target.toList.map (fun target => "name=" ++ target)
  | say text => ["say", "\x22" ++ text ++ "\x22"]
  | seq name loops =>
    ["seq", name] ++ loops.toList.map fun on => if on then "loop" else "noloop"
  | examine => ["examine"]

/-- The text of an item. -/
def print (item : Item) : String := " ".intercalate item.words

/-- Whether an item can be read back: its names are made of the right characters and are not taken
for parameters or flags, and its text can stand between quotes. -/
def Valid : Item → Prop
  | texture path mask _ target =>
    (Made CharClass.resourcePath.accepts path ∧ '=' ∉ path.toList) ∧
      (∀ word ∈ mask, Made CharClass.resourcePath.accepts word) ∧
      ∀ word ∈ target, Made CharClass.objectName.accepts word
  | say text => ∀ c ∈ text.toList, c ≠ '\x22' ∧ isStray c = false
  | seq name _ => Made CharClass.fileName.accepts name ∧ name ≠ "loop" ∧ name ≠ "noloop"
  | examine => True

instance (item : Item) : Decidable item.Valid :=
  match item with
  | texture .. => inferInstanceAs (Decidable ((_ ∧ _) ∧ _ ∧ _))
  | say _ => inferInstanceAs (Decidable (∀ c ∈ _, _))
  | seq .. => inferInstanceAs (Decidable (_ ∧ _ ∧ _))
  | examine => inferInstanceAs (Decidable True)

/-- The command of an item. -/
def command : Item → Command
  | texture path mask tag target =>
    ⟨.texture, ⟨[("texture", .text path)] ++ mask.toList.map (fun mask => ("mask", .text mask)) ++
      tag.toList.map (fun tag => ("tag", .integer tag)) ++
      target.toList.map (fun target => ("targetName", .text (Text.lowercase target)))⟩⟩
  | say text => ⟨.say, ⟨[("text", .text text)]⟩⟩
  | seq name loops =>
    ⟨.seq, ⟨[("seq", .text name)] ++ loops.toList.map fun on => ("loop", .bool on)⟩⟩
  | examine => ⟨.examine, ∅⟩

end Item

/-- The text of a trigger with items. -/
def printAction (action : Trigger × List Item) : String :=
  action.1.word ++ " " ++ ", ".intercalate (action.2.map Item.print)

/-- The text of a list of triggers with items. -/
def printActions (actions : List (Trigger × List Item)) : String :=
  "; ".intercalate (actions.map printAction)

namespace Item

/-- The kind of an item. -/
def kind : Item → CommandKind
  | texture .. => .texture
  | say _ => .say
  | seq .. => .seq
  | examine => .examine

/-- The words of an item after the first, with the arguments that they stand for. -/
def arguments : Item → List (List Char × Argument)
  | texture path mask tag target =>
    [(path.toList, .resource path)] ++
      mask.toList.map (fun mask => ("mask=".toList ++ mask.toList, .parameter "mask" (.raw mask))) ++
      tag.toList.map (fun tag => ("tag=".toList ++ Nat.toDigits 10 tag.toNat,
        .parameter "tag" (.integer (toString tag.toNat)))) ++
      target.toList.map (fun target => ("name=".toList ++ target.toList, .target target))
  | say text => [('\x22' :: text.toList ++ ['\x22'], .text text)]
  | seq name loops => [(name.toList, .sequence name)] ++ loops.toList.map fun on =>
      ((if on then "loop" else "noloop").toList,
        .status .loops (if on then "loop" else "noloop"))
  | examine => []

/-- The phrase that is read from an item. -/
def phrase (item : Item) : Phrase :=
  match item with
  | examine => .examine
  | item => .arguments item.kind (item.arguments.map Prod.snd)

/-- A joined list is its first text, and each of the others after a separator. -/
theorem toList_intercalate_cons (separator first : String) (others : List String) :
    (separator.intercalate (first :: others)).toList =
      first.toList ++ others.flatMap fun other => separator.toList ++ other.toList := by
  induction others generalizing first with
  | nil => simp
  | cons next others ih =>
    rw [String.intercalate_cons_cons, String.toList_append, String.toList_append, ih]
    simp

/-- An item is printed as the word of its kind and its other words. -/
theorem toList_print (item : Item) :
    item.print.toList =
      item.kind.word.toList ++ item.arguments.flatMap fun argument => ' ' :: argument.1 := by
  cases item with
  | texture path mask tag target =>
    rw [print, words, List.cons_append, List.cons_append, List.cons_append,
      toList_intercalate_cons]
    cases mask <;> cases tag <;> cases target <;> simp [kind, CommandKind.word, arguments]
  | say text =>
    rw [print, words, toList_intercalate_cons]
    simp [kind, CommandKind.word, arguments]
  | seq name loops =>
    rw [print, words, List.cons_append, toList_intercalate_cons]
    obtain _ | _ | _ := loops <;> simp [kind, CommandKind.word, arguments]
  | examine => rfl

/-- A path is read as a resource, unless it has an equals sign. -/
theorem reads_resource {path : String} (made : Made CharClass.resourcePath.accepts path)
    (plain : '=' ∉ path.toList) : Reads Argument.texture path.toList (.resource path) := by
  refine ⟨made.solid (by decide), fun tail ends => ?_⟩
  have mask : (Argument.mask (path.toList ++ tail)).result = none :=
    result_assign_of_plain _ plain ends (keyword_within (by decide) ends)
  have tag : (Argument.tag (path.toList ++ tail)).result = none :=
    result_assign_of_plain _ plain ends (literal_within (by decide) ends)
  have name : (Argument.name (path.toList ++ tail)).result = none :=
    result_assign_of_plain _ plain ends (literal_within (by decide) ends)
  have found := result_chars made.1 made.2 (ends.refused (by decide))
  simp [Argument.texture, result_firstOf_cons, mask, tag, name, Grammar.Argument.resource, make,
    resourcePath, result_bind, found]

/-- A path after the key of the mask is read as the mask. -/
theorem reads_mask {mask : String} (made : Made CharClass.resourcePath.accepts mask) :
    Reads Argument.texture ("mask=".toList ++ mask.toList) (.parameter "mask" (.raw mask)) := by
  refine ⟨⟨'m', _, rfl, by decide⟩, fun tail ends => ?_⟩
  have key : (keyword "mask" ("mask=".toList ++ mask.toList ++ tail)).result =
      some ("mask".toList, '=' :: (mask.toList ++ tail)) := result_keyword_of_same rfl _
  have value := result_chars made.1 made.2 (ends.refused (by decide))
  have found := result_parameter .raw key value
  rw [Argument.texture, result_firstOf_cons, Argument.mask, resourcePath, found]
  simp

/-- Digits after the key of the tag are read as the tag. -/
theorem reads_tag {digits : String} (made : Made CharClass.digit.accepts digits) :
    Reads Argument.texture ("tag=".toList ++ digits.toList)
      (.parameter "tag" (.integer digits)) := by
  refine ⟨⟨'t', _, rfl, by decide⟩, fun tail ends => ?_⟩
  have mask : (Argument.mask ("tag=".toList ++ digits.toList ++ tail)).result = none := rfl
  rw [Argument.texture, result_firstOf_cons, mask, result_firstOf_cons,
    result_tag made.1 made.2 ends, String.ofList_toList]
  rfl

/-- The digits of a number are digits. -/
theorem made_repr (number : Nat) : Made CharClass.digit.accepts (toString number) := by
  have digits : (toString number).toList = Nat.toDigits 10 number := Nat.toList_repr
  rw [Made, digits]
  exact ⟨Nat.toDigits_ne_nil, fun c member =>
    Nat.isDigit_of_mem_toDigits (by decide) (by decide) member⟩

/-- A name after its key is read as the target. -/
theorem reads_target {target : String} (made : Made CharClass.objectName.accepts target) :
    Reads Argument.texture ("name=".toList ++ target.toList) (.target target) := by
  refine ⟨⟨'n', _, rfl, by decide⟩, fun tail ends => ?_⟩
  have mask : (Argument.mask ("name=".toList ++ target.toList ++ tail)).result = none := rfl
  have tag : (Argument.tag ("name=".toList ++ target.toList ++ tail)).result = none := rfl
  have key : (literal "name" ("name=".toList ++ target.toList ++ tail)).result =
      some ("name".toList, '=' :: (target.toList ++ tail)) := result_literal "name" _
  have equals : (literal "=" ('=' :: (target.toList ++ tail))).result =
      some (['='], target.toList ++ tail) := result_literal_self rfl _
  have value := result_chars made.1 made.2 (ends.refused (by decide))
  simp only [Argument.texture, result_firstOf_cons, mask, tag, Argument.name, result_bind, key,
    Option.bind_some, equals, make, objectName, value, result_pure]
  simp

/-- A text between quotes is read whatever is in it. -/
theorem reads_text {text : String} (unquoted : ∀ c ∈ text.toList, c ≠ '\x22') :
    Reads Argument.say ('\x22' :: text.toList ++ ['\x22']) (.text text) := by
  refine ⟨⟨'\x22', _, rfl, by decide⟩, fun tail _ => ?_⟩
  have inside : ∀ c ∈ text.toList, (c ≠ '\x22' : Bool) = true := fun c member => by
    simp [unquoted c member]
  have mark (rest : List Char) : (literal "\x22" ('\x22' :: rest)).result =
      some (['\x22'], rest) := result_literal_self rfl rest
  have body : (Rule.run (fun c => c ≠ '\x22') (text.toList ++ ['\x22'] ++ tail)).result =
      some (text.toList, '\x22' :: tail) := by
    rw [List.append_assoc, Rule.run, List.takeWhile_append_of_pos inside,
      List.dropWhile_append_of_pos inside]
    simp
  have quoted : (quotedText ('\x22' :: text.toList ++ ['\x22'] ++ tail)).result =
      some (text.toList, tail) := by
    rw [quotedText, List.cons_append, List.cons_append, result_bind_of_some (mark _),
      result_bind_of_some body, result_bind, result_optional, mark]
    rfl
  rw [Argument.say, make, result_bind, Word.text, result_firstOf_cons, quoted]
  simp

/-- The name of a sequence is read, unless it is a flag. -/
theorem reads_sequence {name : String} (made : Made CharClass.fileName.accepts name)
    (other : name ≠ "loop" ∧ name ≠ "noloop") :
    Reads Argument.seq name.toList (.sequence name) := by
  refine ⟨made.solid (by decide), fun tail ends => ?_⟩
  have plain : '=' ∉ name.toList := fun member =>
    absurd (made.2 '=' member) (by decide)
  have target : (Argument.name (name.toList ++ tail)).result = none :=
    result_assign_of_plain _ plain ends (literal_within (by decide) ends)
  have flag := @result_whole_status_of_ne .loops _ rfl _ _ made.2 other ends
  have value := result_chars made.1 made.2 (ends.refused (by decide))
  simp [Argument.seq, result_firstOf_cons, target, flag, make, fileName, result_bind, value]

/-- A flag after the name of a sequence is read. -/
theorem reads_loops (on : Bool) :
    Reads Argument.seq (if on then "loop" else "noloop").toList
      (.status .loops (if on then "loop" else "noloop")) := by
  refine ⟨by cases on <;> exact ⟨_, _, rfl, by decide⟩, fun tail ends => ?_⟩
  have target : (Argument.name ((if on then "loop" else "noloop").toList ++ tail)).result =
      none := by cases on <;> rfl
  have known : (if on then "loop" else "noloop") = Flag.loops.word ∨
      (if on then "loop" else "noloop") = "noloop" := by cases on <;> simp [Flag.word]
  have flag := result_whole_status rfl known ends
  rw [Argument.seq, result_firstOf_cons, target, result_firstOf_cons, flag]
  rfl

/-- A valid item spells its phrase. -/
theorem spells_print {item : Item} (valid : item.Valid) :
    Spells item.print.toList item.phrase := by
  have known : item.kind ∈ CommandKind.recognized := by
    cases item <;> simp [kind, CommandKind.recognized]
  rw [toList_print]
  cases item with
  | texture path mask tag target =>
    have each : ∀ argument ∈ arguments (.texture path mask tag target),
        Reads Argument.texture argument.1 argument.2 := by
      obtain ⟨⟨made, plain⟩, masks, targets⟩ := valid
      simp only [arguments, List.mem_append, List.mem_singleton, List.mem_map, Option.mem_toList]
      rintro argument (((rfl | ⟨mask, given, rfl⟩) | ⟨tag, -, rfl⟩) | ⟨target, given, rfl⟩)
      · exact reads_resource made plain
      · exact reads_mask (masks mask given)
      · rw [← Nat.toList_repr]
        exact reads_tag (made_repr tag.toNat)
      · exact reads_target (targets target given)
    exact .of_words known rfl (.of_worded .texture) rfl each
  | say text =>
    have each : ∀ argument ∈ arguments (.say text), Reads Argument.say argument.1 argument.2 := by
      simp only [arguments, List.mem_singleton]
      rintro argument rfl
      exact reads_text fun c member => (valid c member).1
    exact .of_words known rfl (.of_worded .say) rfl each
  | seq name loops =>
    have each : ∀ argument ∈ arguments (.seq name loops),
        Reads Argument.seq argument.1 argument.2 := by
      simp only [arguments, List.mem_append, List.mem_singleton, List.mem_map, Option.mem_toList]
      rintro argument (rfl | ⟨on, -, rfl⟩)
      · exact reads_sequence valid.1 valid.2
      · exact reads_loops on
    exact .of_words known rfl (.of_worded .seq) rfl each
  | examine =>
    have text : examine.kind.word.toList ++ examine.arguments.flatMap (fun argument =>
        ' ' :: argument.1) = CommandKind.examine.word.toList := List.append_nil _
    rw [text]
    refine ⟨⟨'e', rfl, by decide⟩, fun tail _ => result_phrase_of_word known ?_⟩
    exact result_bind_of_some (result_keyword_of_same rfl tail) fun _ => pure Phrase.examine

/-- A number is read back from its digits. -/
theorem integerOf_repr (tag : UInt64) : Decimal.integerOf tag.toNat.repr = tag := by
  have digits : Decimal.naturalOf tag.toNat.repr.toList = tag.toNat := by
    rw [Nat.toList_repr]
    exact Nat.ofDigitChars_ten_toDigits
  have bound := tag.toNat_lt
  rw [Decimal.integerOf, digits, ← UInt64.toNat_inj, Decimal.toNat_saturate, UInt64.size]
  omega

/-- The phrase of an item stands for its command. -/
theorem command?_phrase (item : Item) : item.phrase.command? = some item.command := by
  cases item with
  | texture path mask tag target =>
    let others : List (String × Value) := mask.toList.map (fun mask => ("mask", .text mask)) ++
      tag.toList.map (fun tag => ("tag", .integer tag)) ++
      target.toList.map (fun target => ("targetName", .text (Text.lowercase target)))
    have maskWord : Text.lowercase "mask" = "mask" := by decide +kernel
    have tagWord : Text.lowercase "tag" = "tag" := by decide +kernel
    have fields : ((arguments (.texture path mask tag target)).map Prod.snd).filterMap
        Argument.field? = ("resource", .text path) :: others := by
      cases mask <;> cases tag <;> cases target <;>
        simp [arguments, others, Argument.field?, ParameterValue.value, Argument.resourceField,
          Command.targetField, maskWord, tagWord, integerOf_repr]
    have names : ("resource" :: others.map Prod.fst).Nodup ∧
        "texture" ∉ "resource" :: others.map Prod.fst := by
      cases mask <;> cases tag <;> cases target <;> simp [others]
    have made : (phrase (.texture path mask tag target)).command? =
        some ⟨.texture, ⟨("texture", .text path) :: others⟩⟩ :=
      command?_arguments_of_resource fields names.1 names.2
    rw [made]
    simp [command, others]
  | say text => rfl
  | seq name loops => obtain _ | _ | _ := loops <;> rfl
  | examine => rfl

end Item

/-- The clause that is read from a trigger with items. -/
def clauseOf (action : Trigger × List Item) : Clause := ⟨action.1, action.2.map Item.phrase⟩

/-- A list of actions can be printed when each has items and all of these are valid. -/
def Printable (actions : List (Trigger × List Item)) : Prop :=
  ∀ action ∈ actions, action.2 ≠ [] ∧ ∀ item ∈ action.2, item.Valid

instance (actions : List (Trigger × List Item)) : Decidable (Printable actions) :=
  inferInstanceAs (Decidable (∀ action ∈ actions, _ ∧ ∀ item ∈ _, _))

/-- A trigger with items is read up to a semicolon. -/
theorem result_clause_print {action : Trigger × List Item} (nonempty : action.2 ≠ [])
    (valid : ∀ item ∈ action.2, item.Valid) {tail : List Char} (ended : Stops.semicolon.At tail) :
    (clause ((printAction action).toList ++ tail)).result = some (clauseOf action, tail) := by
  obtain ⟨kind, items⟩ := action
  cases items with
  | nil => exact absurd rfl nonempty
  | cons first others =>
    let spelt (item : Item) : List Char × Phrase := (item.print.toList, item.phrase)
    have each : ∀ item ∈ spelt first :: others.map spelt, Spells item.1 item.2 := by
      rw [← List.map_cons, List.forall_mem_map]
      exact fun item member => Item.spells_print (valid item member)
    have text : (printAction (kind, first :: others)).toList ++ tail =
        kind.word.toList ++ (' ' :: ((spelt first).1 ++
          (((others.map spelt).map Prod.fst).flatMap (", ".toList ++ ·) ++ tail))) := by
      rw [printAction, String.toList_append, String.toList_append, List.map_cons,
        Item.toList_intercalate_cons, List.flatMap_map, List.map_map, List.flatMap_map]
      simp [spelt]
    rw [text, result_clause_spells kind each ended, ← List.map_cons, List.map_map]
    rfl

/-- A printed action begins with a letter. -/
theorem solid_printAction (action : Trigger × List Item) : Solid (printAction action).toList := by
  have words : ∀ kind : Trigger, Solid kind.word.toList := by
    intro kind
    cases kind <;> exact ⟨_, rfl, by decide⟩
  rw [printAction, String.toList_append, String.toList_append, List.append_assoc]
  exact (words action.1).append _

/-- Printed actions after semicolons are read to the end. -/
theorem result_followers_print {actions : List (Trigger × List Item)}
    (printable : Printable actions) :
    (followers ";" clause
      (actions.flatMap fun action => "; ".toList ++ (printAction action).toList)).result =
        some (actions.map clauseOf, []) := by
  have single : (";" : String).toList = [';'] := rfl
  induction actions with
  | nil => exact result_followers_of_ne single clause (by decide)
  | cons action actions ih =>
    have ended : Stops.semicolon.At
        (actions.flatMap fun action => "; ".toList ++ (printAction action).toList) := by
      cases actions with
      | nil => exact Stops.at_nil
      | cons action actions => exact Stops.at_cons (by decide) _
    rw [Printable, List.forall_mem_cons] at printable
    have passed (more : List Char) :
        passOver ';' ("; ".toList ++ (printAction action).toList ++ more) =
          (printAction action).toList ++ more :=
      ((solid_printAction action).append more).passOver (by decide)
    have found := result_clause_print printable.1.1 printable.1.2 ended
    rw [List.flatMap_cons, result_followers_of_some single rfl (by rw [passed, found]),
      ih printable.2]
    rfl

/-- Printed actions are read as their clauses. -/
theorem read_print {actions : List (Trigger × List Item)} (printable : Printable actions) :
    read (printActions actions).toList = .ok (actions.map clauseOf) := by
  rw [read_eq_ok_iff]
  refine ⟨[], ?_, .inl rfl⟩
  cases actions with
  | nil => exact result_separated_of_none rfl
  | cons action actions =>
    rw [Printable, List.forall_mem_cons] at printable
    have ended : Stops.semicolon.At
        (actions.flatMap fun action => "; ".toList ++ (printAction action).toList) := by
      cases actions with
      | nil => exact Stops.at_nil
      | cons action actions => exact Stops.at_cons (by decide) _
    have found := result_clause_print printable.1.1 printable.1.2 ended
    rw [printActions, List.map_cons, Item.toList_intercalate_cons, List.flatMap_map,
      result_separated_of_some (by rw [((solid_printAction action).append _).strip, found]),
      result_followers_print printable.2]
    rfl

/-- A text without stray controls. -/
def Tidy (text : List Char) : Prop := ∀ c ∈ text, isStray c = false

instance (text : List Char) : Decidable (Tidy text) :=
  inferInstanceAs (Decidable (∀ c ∈ text, isStray c = false))

/-- Tidy texts make up a tidy text. -/
theorem Tidy.append {first second : List Char} (tidyFirst : Tidy first) (tidySecond : Tidy second) :
    Tidy (first ++ second) :=
  List.forall_mem_append.mpr ⟨tidyFirst, tidySecond⟩

/-- A word of characters among which there are no stray controls is tidy. -/
theorem Made.tidy_of_refused {accepts : Char → Bool} {word : String} (made : Made accepts word)
    (refused : accepts '\x7f' = false ∧ accepts '\x80' = false) : Tidy word.toList := by
  intro c member
  have inside := made.2 c member
  rw [isStray, Bool.or_eq_false_iff, decide_eq_false_iff_not, decide_eq_false_iff_not]
  constructor
  · rintro rfl
    rw [refused.1] at inside
    cases inside
  · rintro rfl
    rw [refused.2] at inside
    cases inside

/-- The classes of the characters that names, paths and numbers are made of. -/
def wordClasses : List CharClass := [.objectName, .resourcePath, .fileName, .digit]

/-- A name, a path or a number is tidy. -/
theorem Made.tidy {kind : CharClass} {word : String} (made : Made kind.accepts word)
    (known : kind ∈ wordClasses) : Tidy word.toList := by
  have refused : ∀ kind ∈ wordClasses,
      kind.accepts '\x7f' = false ∧ kind.accepts '\x80' = false := by decide +kernel
  exact made.tidy_of_refused (refused kind known)

/-- A source for the creation of an object is cleaned to itself when its commands are tidy. -/
theorem clean_create {commands : String} (tidy : Tidy commands.toList) :
    clean ("create " ++ commands).toList =
      Trigger.create.word.toList ++ (' ' :: commands.toList) := by
  have whole : Tidy ("create " ++ commands).toList := by
    rw [String.toList_append]
    exact Tidy.append (by decide) tidy
  rw [clean_of_forall whole, String.toList_append]
  rfl

/-- A command word with tidy words after it is tidy. -/
theorem tidy_words (kind : CommandKind) {items : List (List Char × Argument)}
    (each : ∀ item ∈ items, Tidy item.1) :
    Tidy (kind.word.toList ++ items.flatMap fun item => ' ' :: item.1) := by
  have letters : Tidy kind.word.toList := fun c member =>
    isStray_of_isAlpha (isAlpha_kind kind c member)
  refine letters.append fun c member => ?_
  obtain ⟨item, given, inside⟩ := List.mem_flatMap.mp member
  obtain rfl | inside := List.mem_cons.mp inside
  · decide
  · exact each item given c inside

/-- A valid item is printed without stray controls. -/
theorem Item.tidy_print {item : Item} (valid : item.Valid) : Tidy item.print.toList := by
  have each : ∀ argument ∈ item.arguments, Tidy argument.1 := by
    cases item with
    | texture path mask tag target =>
      obtain ⟨⟨made, -⟩, masks, targets⟩ := valid
      simp only [arguments, List.mem_append, List.mem_singleton, List.mem_map, Option.mem_toList]
      rintro argument (((rfl | ⟨mask, given, rfl⟩) | ⟨tag, -, rfl⟩) | ⟨target, given, rfl⟩)
      · exact made.tidy (by decide)
      · exact Tidy.append (by decide) ((masks mask given).tidy (by decide))
      · rw [← Nat.toList_repr]
        exact Tidy.append (by decide) ((made_repr tag.toNat).tidy (by decide))
      · exact Tidy.append (by decide) ((targets target given).tidy (by decide))
    | say text =>
      simp only [arguments, List.mem_singleton]
      rintro argument rfl
      have inner : Tidy text.toList := fun c member => (valid c member).2
      have mark : Tidy ['\x22'] := by decide
      exact (mark.append inner).append mark
    | seq name loops =>
      simp only [arguments, List.mem_append, List.mem_singleton, List.mem_map, Option.mem_toList]
      rintro argument (rfl | ⟨on, -, rfl⟩)
      · exact valid.1.tidy (by decide)
      · cases on <;> decide
    | examine => simp [arguments]
  rw [toList_print]
  exact tidy_words item.kind each

/-- Tidy texts are joined to a tidy text by a tidy separator. -/
theorem tidy_intercalate {separator : String} (tidy : Tidy separator.toList) {texts : List String}
    (each : ∀ text ∈ texts, Tidy text.toList) : Tidy (separator.intercalate texts).toList := by
  cases texts with
  | nil => simp [Tidy]
  | cons first others =>
    rw [List.forall_mem_cons] at each
    rw [Item.toList_intercalate_cons]
    refine each.1.append fun c member => ?_
    obtain ⟨other, given, inside⟩ := List.mem_flatMap.mp member
    exact (tidy.append (each.2 other given)) c inside

/-- Printable actions are printed without stray controls. -/
theorem tidy_printActions {actions : List (Trigger × List Item)} (printable : Printable actions) :
    Tidy (printActions actions).toList := by
  refine tidy_intercalate (by decide) fun text member => ?_
  obtain ⟨action, given, rfl⟩ := List.mem_map.mp member
  have words : ∀ kind : Trigger, Tidy kind.word.toList := by
    intro kind
    cases kind <;> decide
  rw [printAction, String.toList_append, String.toList_append]
  refine ((words action.1).append (by decide)).append (tidy_intercalate (by decide) ?_)
  intro text member
  obtain ⟨item, inside, rfl⟩ := List.mem_map.mp member
  exact Item.tidy_print ((printable action given).2 item inside)

/-- Printed actions are read back: the same triggers in the same order, and each item as its
command. -/
theorem parseRaw_printActions {actions : List (Trigger × List Item)}
    (printable : Printable actions) :
    parseRaw (printActions actions) = .ok (actions.map fun action =>
      ⟨action.1, action.2.map fun item => some item.command⟩) := by
  rw [parseRaw_eq_ok_iff, clean_of_forall (tidy_printActions printable)]
  refine ⟨_, read_print printable, ?_⟩
  rw [List.map_map]
  refine List.map_congr_left fun action _ => ?_
  simp [clauseOf, Clause.rawAction, Item.command?_phrase, Function.comp_def]

/-- Names that look like parameters and flags, and a text with separators. -/
theorem parseRaw_printActions_lookalikes :
    parseRaw "create texture mask mask=m tag=7 name=Bob, seq loopy loop; bump say \x22a, b; c\x22" =
      .ok [⟨.create, [some ⟨.texture, ⟨[("texture", .text "mask"), ("mask", .text "m"),
          ("tag", .integer 7), ("targetName", .text "bob")]⟩⟩,
          some ⟨.seq, ⟨[("seq", .text "loopy"), ("loop", .bool true)]⟩⟩]⟩,
        ⟨.bump, [some ⟨.say, ⟨[("text", .text "a, b; c")]⟩⟩]⟩] := by
  have printable : Printable
      [(.create, [.texture "mask" (some "m") (some 7) (some "Bob"), .seq "loopy" (some true)]),
        (.bump, [.say "a, b; c"])] := by decide +kernel
  have text : printActions
      [(.create, [.texture "mask" (some "m") (some 7) (some "Bob"), .seq "loopy" (some true)]),
        (.bump, [.say "a, b; c"])] =
      "create texture mask mask=m tag=7 name=Bob, seq loopy loop; bump say \x22a, b; c\x22" := by
    decide +kernel
  have lower : Text.lowercase "Bob" = "bob" := by decide +kernel
  rw [← text, parseRaw_printActions printable]
  simp [Item.command, lower]

end ActionString
