import ActionString.Proofs.Animations
import ActionString.Proofs.BareWords

/-!
# Tags of surfaces

A texture may be for the surfaces with a tag only, and of two textures for one target and one tag
the second takes the place of the first. A corona knows no tag: what looks like one is taken for a
second path, so the command is discarded.
-/

namespace ActionString

open Grammar Rule Word

/-- The words for a path and a tag, with the arguments that they are read as. -/
def tagWords (path digits : String) (second : Argument) : List (List Char × Argument) :=
  [(path.toList, .resource path), ("tag=".toList ++ digits.toList, second)]

/-- A command with a path and a tag stands for what its two words are read as. -/
theorem parseRaw_tag {kind : CommandKind} {rule : Rule Argument} (takes : TakesWords kind rule)
    {path digits : String} {second : Argument}
    (each : ∀ item ∈ tagWords path digits second, Reads rule item.1 item.2)
    (tidy : ∀ item ∈ tagWords path digits second, Tidy item.1) :
    parseRaw ("create " ++ (kind.word ++ " " ++ path ++ " tag=" ++ digits)) =
      .ok [⟨.create, [(Phrase.arguments kind [.resource path, second]).command?]⟩] := by
  have printed : (kind.word ++ " " ++ path ++ " tag=" ++ digits).toList =
      kind.word.toList ++ (tagWords path digits second).flatMap fun item => ' ' :: item.1 := by
    simp [tagWords]
  exact parseRaw_create_words takes.known takes.shape takes.blind takes.missed printed each tidy

/-- What looks like a tag is read as a path after a corona. -/
theorem reads_corona_tag {digits : String} (made : Made CharClass.digit.accepts digits) :
    Reads Argument.corona ("tag=".toList ++ digits.toList) (.resource ("tag=" ++ digits)) := by
  refine ⟨⟨'t', _, rfl, by decide⟩, fun tail ends => ?_⟩
  have path : ∀ c ∈ "tag=".toList ++ digits.toList, CharClass.resourcePath.accepts c = true := by
    refine List.forall_mem_append.mpr ⟨by decide, fun c member => ?_⟩
    have digit : c.isDigit = true := made.2 c member
    simp [CharClass.accepts, Text.isAlphanumeric, digit]
  have nonempty : "tag=".toList ++ digits.toList ≠ [] := by simp
  -- None of the parameters of a corona begins as a tag does, so only a path is left.
  have mask : (Argument.mask ("tag=".toList ++ digits.toList ++ tail)).result = none := rfl
  have size : (Argument.numberParameter (literal "size")
      ("tag=".toList ++ digits.toList ++ tail)).result = none := rfl
  have name : (Argument.name ("tag=".toList ++ digits.toList ++ tail)).result = none := rfl
  have found := result_chars nonempty path (ends.refused (by decide))
  rw [Argument.corona, result_firstOf_cons, mask, Option.none_or, result_firstOf_cons, size,
    Option.none_or, result_firstOf_cons, name, Option.none_or, result_firstOf_cons,
    Grammar.Argument.resource, make, resourcePath, result_bind_of_some found,
    ← String.toList_append, String.ofList_toList]
  rfl

/-- A path and a tag are tidy. -/
theorem tidy_tagWords {path digits : String} (made : Made CharClass.resourcePath.accepts path)
    (counted : Made CharClass.digit.accepts digits) (second : Argument) :
    ∀ item ∈ tagWords path digits second, Tidy item.1 := by
  rw [tagWords, List.forall_mem_cons, List.forall_mem_singleton]
  exact ⟨made.tidy (by decide), Tidy.append (by decide) (counted.tidy (by decide))⟩

/-- A tag is for its field. -/
theorem field?_tag (digits : String) :
    (Argument.parameter "tag" (.integer digits)).field? =
      some ("tag", .integer (saturated digits)) :=
  AnimationOption.field?_argument (.tag digits)

/-- A path and a tag after a texture are the two fields of one command. After a corona they are for
one field, so there is no command and no action is left. -/
theorem parse_tag {path digits : String} (made : Made CharClass.resourcePath.accepts path)
    (plain : '=' ∉ path.toList) (counted : Made CharClass.digit.accepts digits) :
    parse ("create texture " ++ path ++ " tag=" ++ digits) =
        ⟨[(.create, [⟨.texture,
          ⟨[("texture", .text path), ("tag", .integer (saturated digits))]⟩⟩])]⟩ ∧
      parse ("create corona " ++ path ++ " tag=" ++ digits) = ∅ := by
  have source (kind : CommandKind) : "create " ++ kind.word ++ " " ++ path ++ " tag=" ++ digits =
      "create " ++ (kind.word ++ " " ++ path ++ " tag=" ++ digits) := by
    simp only [String.append_assoc]
  constructor
  · have each : ∀ item ∈ tagWords path digits (.parameter "tag" (.integer digits)),
        Reads Argument.texture item.1 item.2 := by
      rw [tagWords, List.forall_mem_cons, List.forall_mem_singleton]
      exact ⟨Item.reads_resource made plain, Item.reads_tag counted⟩
    have read := parseRaw_tag takesWords_texture each (tidy_tagWords made counted _)
    rw [← source] at read
    have fields : [Argument.resource path, .parameter "tag" (.integer digits)].filterMap
        Argument.field? = [("resource", .text path), ("tag", .integer (saturated digits))] := by
      rw [List.filterMap_cons, List.filterMap_cons, field?_tag]
      rfl
    have names : ["resource", "tag"].Nodup ∧ "texture" ∉ ["resource", "tag"] := by decide
    have command : (Phrase.arguments .texture
        [.resource path, .parameter "tag" (.integer digits)]).command? =
          some ⟨.texture, ⟨[("texture", .text path), ("tag", .integer (saturated digits))]⟩⟩ :=
      command?_arguments_of_resource fields names.1 names.2
    exact (parse_eq_single_iff read).mpr ⟨command, rfl⟩
  · have each : ∀ item ∈ tagWords path digits (.resource ("tag=" ++ digits)),
        Reads Argument.corona item.1 item.2 := by
      rw [tagWords, List.forall_mem_cons, List.forall_mem_singleton]
      have bare : Bare .corona path := ⟨made, plain⟩
      exact ⟨takesWords_corona.reads bare (by simp [CommandKind.flagWords]),
        reads_corona_tag counted⟩
    have read := parseRaw_tag takesWords_corona each (tidy_tagWords made counted _)
    -- Both words are for the path, so the command has a field twice.
    have twice : ¬["resource", "resource"].Nodup := by decide
    have none : (Phrase.arguments .corona [.resource path, .resource ("tag=" ++ digits)]).command? =
        none := command?_arguments_of_not_nodup .corona twice
    rw [← source, none] at read
    exact parse_of_parseRaw read

/-- Zeros in front of a tag do not count, and digits past the greatest tag are for the greatest. -/
theorem parse_tag_saturated :
    Made CharClass.resourcePath.accepts "wall.jpg" ∧
      parse "create texture wall.jpg tag=007" = ⟨[(.create, [⟨.texture,
        ⟨[("texture", .text "wall.jpg"), ("tag", .integer 7)]⟩⟩])]⟩ ∧
      parse "create texture wall.jpg tag=18446744073709551616" = ⟨[(.create, [⟨.texture,
        ⟨[("texture", .text "wall.jpg"), ("tag", .integer 18446744073709551615)]⟩⟩])]⟩ := by
  have made : Made CharClass.resourcePath.accepts "wall.jpg" := by decide
  have plain : '=' ∉ "wall.jpg".toList := by decide
  have zeros := (@parse_tag _ "007" made plain (by decide)).1
  have great := (@parse_tag _ "18446744073709551616" made plain (by decide)).1
  have values : saturated "007" = 7 ∧
      saturated "18446744073709551616" = 18446744073709551615 := by decide
  rw [values.1] at zeros
  rw [values.2] at great
  exact ⟨made, zeros, great⟩

/-- A corona with a tag is no corona at all. -/
theorem parse_corona_tag :
    (Made CharClass.resourcePath.accepts "halo.jpg" ∧ '=' ∉ "halo.jpg".toList ∧
        Made CharClass.digit.accepts "5") ∧
      parse "create corona halo.jpg tag=5" ≠ ⟨[(.create, [⟨.corona,
        ⟨[("corona", .text "halo.jpg"), ("tag", .integer 5)]⟩⟩])]⟩ := by
  have made : Made CharClass.resourcePath.accepts "halo.jpg" := by decide
  have found : read (clean "create corona halo.jpg tag=5".toList) =
      .ok [⟨.create, [.arguments .corona [.resource "halo.jpg", .resource "tag=5"]]⟩] := by
    decide +kernel
  refine ⟨⟨made, by decide, by decide⟩, ?_⟩
  rw [parse_of_parseRaw (parseRaw_eq_ok_iff.mpr ⟨_, found, rfl⟩)]
  decide +kernel

/-- A texture for the surfaces with a tag of the object with a name. -/
structure Texturing where
  path : String
  digits : String
  target : String
  deriving DecidableEq, Repr

namespace Texturing

/-- The text of a texture. -/
def print (texturing : Texturing) : String :=
  "texture " ++ texturing.path ++ " tag=" ++ texturing.digits ++ " name=" ++ texturing.target

/-- The command of a texture. -/
def command (texturing : Texturing) : Command :=
  ⟨.texture, ⟨[("texture", .text texturing.path), ("tag", .integer (saturated texturing.digits)),
    ("targetName", .text (Text.lowercase texturing.target))]⟩⟩

/-- Whether a texture can be read back: its words are made of the right characters, and its path is
not taken for a parameter. -/
structure Valid (texturing : Texturing) : Prop where
  path : Made CharClass.resourcePath.accepts texturing.path
  plain : '=' ∉ texturing.path.toList
  digits : Made CharClass.digit.accepts texturing.digits
  target : Made CharClass.objectName.accepts texturing.target

/-- The words of a texture, with the arguments that they are read as. -/
def words (texturing : Texturing) : List (List Char × Argument) :=
  tagWords texturing.path texturing.digits (.parameter "tag" (.integer texturing.digits)) ++
    [("name=".toList ++ texturing.target.toList, .target texturing.target)]

/-- The phrase that is read from a texture. -/
def phrase (texturing : Texturing) : Phrase :=
  .arguments .texture (texturing.words.map Prod.snd)

/-- A texture is printed as its word and its arguments. -/
theorem toList_print (texturing : Texturing) :
    texturing.print.toList = CommandKind.texture.word.toList ++
      texturing.words.flatMap fun word => ' ' :: word.1 := by
  simp [print, words, tagWords, CommandKind.word]

/-- A valid texture spells its phrase. -/
theorem spells_print {texturing : Texturing} (valid : texturing.Valid) :
    Spells texturing.print.toList texturing.phrase := by
  rw [toList_print]
  refine takesWords_texture.spells ?_
  rw [words, List.forall_mem_append, List.forall_mem_singleton, tagWords, List.forall_mem_cons,
    List.forall_mem_singleton]
  exact ⟨⟨Item.reads_resource valid.path valid.plain, Item.reads_tag valid.digits⟩,
    Item.reads_target valid.target⟩

/-- A valid texture is tidy. -/
theorem tidy_print {texturing : Texturing} (valid : texturing.Valid) :
    Tidy texturing.print.toList := by
  rw [toList_print]
  refine tidy_words .texture ?_
  rw [words, List.forall_mem_append, List.forall_mem_singleton]
  exact ⟨tidy_tagWords valid.path valid.digits _,
    Tidy.append (by decide) (valid.target.tidy (by decide))⟩

/-- The phrase of a texture stands for its command. -/
theorem command?_phrase (texturing : Texturing) :
    texturing.phrase.command? = some texturing.command := by
  have fields : (texturing.words.map Prod.snd).filterMap Argument.field? =
      [("resource", .text texturing.path), ("tag", .integer (saturated texturing.digits)),
        ("targetName", .text (Text.lowercase texturing.target))] := by
    rw [words, tagWords, List.cons_append, List.map_cons, List.filterMap_cons, List.cons_append,
      List.map_cons, List.filterMap_cons, field?_tag]
    rfl
  have names : ["resource", "tag", "targetName"].Nodup ∧
      "texture" ∉ ["resource", "tag", "targetName"] := by decide
  exact command?_arguments_of_resource fields names.1 names.2

/-- A texture concerns its target, in small letters, and its tag. -/
theorem mergeKey_command (texturing : Texturing) :
    texturing.command.mergeKey =
      ⟨.texture, Text.lowercase texturing.target, some (saturated texturing.digits)⟩ := rfl

end Texturing

/-- Textures after one another are read as their commands. -/
theorem parseRaw_texturings {first : Texturing} {others : List Texturing}
    (valid : ∀ texturing ∈ first :: others, texturing.Valid) :
    parseRaw ("create " ++ ", ".intercalate ((first :: others).map Texturing.print)) =
      .ok [⟨.create, (first :: others).map fun texturing => some texturing.command⟩] := by
  let spelt (texturing : Texturing) : String × Phrase := (texturing.print, texturing.phrase)
  have each : ∀ item ∈ spelt first :: others.map spelt, Spells item.1.toList item.2 := by
    rw [← List.map_cons, List.forall_mem_map]
    exact fun texturing member => Texturing.spells_print (valid texturing member)
  have tidy : ∀ item ∈ spelt first :: others.map spelt, Tidy item.1.toList := by
    rw [← List.map_cons, List.forall_mem_map]
    exact fun texturing member => Texturing.tidy_print (valid texturing member)
  have commands : (fun texturing => (spelt texturing).2.command?) =
      fun texturing => some texturing.command := funext Texturing.command?_phrase
  have read := parseRaw_create each tidy
  rw [← List.map_cons, List.map_map, List.map_map] at read
  rw [← commands]
  exact read

/-- Of two textures the second takes the place of the first exactly when they are for one target, up
to the case of its letters, and for one tag, up to the greatest. -/
theorem parse_texturings {first second : Texturing} (firstValid : first.Valid)
    (secondValid : second.Valid) :
    parse ("create " ++ first.print ++ ", " ++ second.print) =
      ⟨[(.create, if Text.lowercase first.target = Text.lowercase second.target ∧
          saturated first.digits = saturated second.digits then [second.command]
        else [first.command, second.command])]⟩ := by
  have both : ∀ texturing ∈ [first, second], texturing.Valid := by
    rw [List.forall_mem_cons, List.forall_mem_singleton]
    exact ⟨firstValid, secondValid⟩
  have read : parseRaw ("create " ++ first.print ++ ", " ++ second.print) =
      .ok [⟨.create, [some first.command, some second.command]⟩] := by
    have text : "create " ++ first.print ++ ", " ++ second.print =
        "create " ++ ", ".intercalate ([first, second].map Texturing.print) := by
      rw [List.map_cons, List.map_singleton, String.intercalate_cons_cons,
        String.intercalate_singleton]
      simp only [String.append_assoc]
    rw [text]
    exact parseRaw_texturings both
  have keys : first.command.mergeKey = second.command.mergeKey ↔
      Text.lowercase first.target = Text.lowercase second.target ∧
        saturated first.digits = saturated second.digits := by
    simp [Texturing.mergeKey_command]
  have merged : mergeCommands [some first.command, some second.command] =
      if Text.lowercase first.target = Text.lowercase second.target ∧
        saturated first.digits = saturated second.digits then [second.command]
      else [first.command, second.command] := by
    rw [mergeCommands_pair rfl rfl, if_congr keys rfl rfl]
  have left : mergeCommands [some first.command, some second.command] ≠ [] := by
    rw [merged]
    split <;> exact List.cons_ne_nil _ _
  rw [parse_of_parseRaw read, if_neg left, merged]

/-- Two tags that are too great are one tag, and two spellings of a name are one target. -/
theorem parse_texturings_saturated :
    Made CharClass.objectName.accepts "WALL" ∧
      parse ("create texture a.jpg tag=18446744073709551616 name=Wall, " ++
        "texture b.jpg tag=0099999999999999999999 name=WALL") =
          ⟨[(.create, [⟨.texture, ⟨[("texture", .text "b.jpg"),
            ("tag", .integer 18446744073709551615), ("targetName", .text "wall")]⟩⟩])]⟩ := by
  let first : Texturing := ⟨"a.jpg", "18446744073709551616", "Wall"⟩
  let second : Texturing := ⟨"b.jpg", "0099999999999999999999", "WALL"⟩
  have firstValid : first.Valid :=
    ⟨by decide, by decide, by decide, by decide⟩
  have secondValid : second.Valid :=
    ⟨by decide, by decide, by decide, by decide⟩
  have read := parse_texturings firstValid secondValid
  have lower : Text.lowercase "Wall" = "wall" ∧ Text.lowercase "WALL" = "wall" := by decide
  have greatest : saturated "18446744073709551616" = 18446744073709551615 ∧
      saturated "0099999999999999999999" = 18446744073709551615 := by decide
  have same : Text.lowercase first.target = Text.lowercase second.target ∧
      saturated first.digits = saturated second.digits :=
    ⟨lower.1.trans lower.2.symm, greatest.1.trans greatest.2.symm⟩
  refine ⟨secondValid.target, ?_⟩
  rw [if_pos same, Texturing.command, lower.2, greatest.2] at read
  exact read

end ActionString
