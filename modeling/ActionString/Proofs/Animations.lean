import ActionString.Proofs.Canonical
import ActionString.Proofs.Heads
import Mathlib.Data.List.Nodup

/-!
# Animations with options anywhere

An animation is an object, a texture and numbers, with options before, between and after them. Each
option is told from a name by its word as a whole, so wherever the options stand, the command has
the same object, texture and numbers.
-/

namespace ActionString

open Grammar Rule Word

/-- An option of an animation: the tag of a surface, or whether there is a mask. -/
inductive AnimationOption where
  | tag (digits : String)
  | mask (on : Bool)
  deriving DecidableEq, Repr

/-- The number that decimal digits stand for, or at most the greatest of 64 bits. -/
def saturated (digits : String) : UInt64 :=
  UInt64.ofNat (min (Nat.ofDigitChars 10 digits.toList 0) (UInt64.size - 1))

namespace AnimationOption

/-- The word of an option. -/
def word : AnimationOption → String
  | tag digits => "tag=" ++ digits
  | mask on => if on then "mask" else "nomask"

/-- The name of the field that an option is for. -/
def name : AnimationOption → String
  | tag _ => "tag"
  | mask _ => "maskStatus"

/-- The value that an option gives to its field. -/
def value : AnimationOption → Value
  | tag digits => .integer (saturated digits)
  | mask on => .bool on

/-- The field that an option is for, with its value. -/
def field (option : AnimationOption) : String × Value := (option.name, option.value)

/-- Whether an option is a tag. -/
def isTag : AnimationOption → Bool
  | tag _ => true
  | mask _ => false

/-- Whether an option is about the mask. -/
def isMask : AnimationOption → Bool
  | tag _ => false
  | mask _ => true

/-- Options with one more that there is no mask, where none of them is about it. -/
def settled (options : List AnimationOption) : List AnimationOption :=
  if options.any (·.isMask) then options else options ++ [mask false]

/-- Whether an option can be read: the number of a tag has digits. -/
def Valid : AnimationOption → Prop
  | tag digits => Made CharClass.digit.accepts digits
  | mask _ => True

instance (option : AnimationOption) : Decidable option.Valid :=
  match option with
  | tag _ => inferInstanceAs (Decidable (Made _ _))
  | mask _ => inferInstanceAs (Decidable True)

/-- The argument that an option is read as. -/
def argument : AnimationOption → Argument
  | tag digits => .parameter "tag" (.integer digits)
  | mask on => .status .mask (mask on).word

end AnimationOption

/-- A part of an animation: an option, or else the object, the texture or a number. -/
abbrev AnimationPart : Type := AnimationOption ⊕ String

namespace AnimationPart

/-- The word of a part. -/
def word : AnimationPart → String := Sum.elim AnimationOption.word id

/-- Whether a part can be read after the texture: an option that can be read, or digits. -/
def Valid : AnimationPart → Prop :=
  Sum.elim AnimationOption.Valid (Made CharClass.digit.accepts)

/-- What a part after the texture is read as. -/
def value : AnimationPart → Argument ⊕ String := Sum.map AnimationOption.argument id

/-- The text of parts, each after a space. -/
def print (parts : List AnimationPart) : List Char :=
  parts.flatMap fun part => ' ' :: part.word.toList

end AnimationPart

/-- The classes of characters that the names and the numbers of an animation are made of. -/
def nameClasses : List CharClass := [.objectName, .fileName, .digit]

/-- A name made of characters of a class that is not taken for an option. -/
def Names (kind : CharClass) (name : String) : Prop :=
  Made kind.accepts name ∧ name ≠ "mask" ∧ name ≠ "nomask"

instance (kind : CharClass) (name : String) : Decidable (Names kind name) :=
  inferInstanceAs (Decidable (_ ∧ _))

/-- The fields of the names and the numbers of an animation: three counts, of which the missing ones
have a value of their own, and a list of frames if there are some. -/
def animationFields (object texture : String) (numbers : List String) : List (String × Value) :=
  let values := numbers.map saturated
  [("targetName", .text (Text.lowercase object)), ("texture", .text texture),
    ("imageCount", .integer (values[0]?.getD 1)), ("frameCount", .integer (values[1]?.getD 1)),
    ("frameDelay", .integer (values[2]?.getD 0))] ++
  if (values.drop 3).isEmpty then [] else [("frameList", .integers (values.drop 3))]

/-- The command of an animation with options, unless two of them are for one field. -/
def animated (options : List AnimationOption) (object texture : String) (numbers : List String) :
    Option Command :=
  if 2 ≤ options.countP (·.isTag) ∨ 2 ≤ options.countP (·.isMask) then none
  else some ⟨.animate,
    ⟨(AnimationOption.settled options).map AnimationOption.field ++
      animationFields object texture numbers⟩⟩

namespace AnimationOption

/-- An option is read as its argument. -/
theorem reads {option : AnimationOption} (valid : option.Valid) :
    Reads Argument.animate option.word.toList option.argument := by
  cases option with
  | tag digits =>
    rw [word, String.toList_append]
    refine ⟨⟨'t', _, rfl, by decide⟩, fun tail ends => ?_⟩
    rw [Argument.animate, result_firstOf_cons, result_tag valid.1 valid.2 ends, argument,
      String.ofList_toList]
    rfl
  | mask on =>
    refine ⟨by cases on <;> exact ⟨_, _, rfl, by decide⟩, fun tail ends => ?_⟩
    have missed : (Argument.tag ((mask on).word.toList ++ tail)).result = none := by
      cases on <;> rfl
    have known : (mask on).word = Flag.mask.word ∨ (mask on).word = "nomask" := by
      cases on <;> simp [word, Flag.word]
    have flag := result_whole_status rfl known ends
    rw [Argument.animate, result_firstOf_cons, missed, result_firstOf_cons, flag]
    rfl

/-- The argument of an option stands for the field of the option. -/
theorem field?_argument (option : AnimationOption) :
    option.argument.field? = some option.field := by
  cases option with
  | tag digits =>
    have lower : Text.lowercase "tag" = "tag" := by decide +kernel
    have number : Decimal.integerOf digits = saturated digits := rfl
    rw [argument, Argument.field?, lower, ParameterValue.value, number]
    rfl
  | mask on => cases on <;> rfl

end AnimationOption

namespace Names

variable {kind : CharClass} {name : String}

/-- The characters of the names and the numbers in an animation are characters of file names. -/
theorem accepts_fileName (known : kind ∈ nameClasses) {c : Char}
    (accepted : kind.accepts c = true) : CharClass.fileName.accepts c = true := by
  simp only [nameClasses, List.mem_cons, List.not_mem_nil, or_false] at known
  obtain rfl | rfl | rfl := known
  · simp only [CharClass.accepts, Bool.or_eq_true] at accepted ⊢
    tauto
  · exact accepted
  · have digit : c.isDigit = true := accepted
    simp [CharClass.accepts, Text.isAlphanumeric, digit]

/-- Digits are not taken for an option. -/
theorem of_digits (made : Made CharClass.digit.accepts name) : Names .digit name := by
  have letter : ∀ word ∈ ["mask", "nomask"], 'm' ∈ word.toList := by decide
  have other : ∀ word ∈ ["mask", "nomask"], name ≠ word := by
    rintro word known rfl
    exact absurd (made.2 'm' (letter name known)) (by decide)
  exact ⟨made, other _ (.head _), other _ (.tail _ (.head _))⟩

/-- A name is not read as an option, whatever it begins with. -/
theorem result_option (named : Names kind name) (known : kind ∈ nameClasses) {tail : List Char}
    (ends : Ends tail) : (Argument.animate (name.toList ++ tail)).result = none := by
  obtain ⟨⟨-, made⟩, other⟩ := named
  have file (c : Char) (member : c ∈ name.toList) : CharClass.fileName.accepts c = true :=
    accepts_fileName known (made c member)
  have plain : '=' ∉ name.toList := fun member => absurd (file '=' member) (by decide)
  have tag : (Argument.tag (name.toList ++ tail)).result = none :=
    result_assign_of_plain _ plain ends (literal_within (by decide) ends)
  have flag := @result_whole_status_of_ne .mask _ rfl _ _ file other ends
  rw [Argument.animate, result_firstOf_cons, tag, result_firstOf_cons, flag]
  rfl

/-- There is one space to strip in front of a name. -/
theorem strip_cons (named : Names kind name) (known : kind ∈ nameClasses) (more : List Char) :
    strip (' ' :: (name.toList ++ more)) = name.toList ++ more := by
  have refused : ∀ kind ∈ nameClasses, ∀ n < 33, kind.accepts (Char.ofNat n) = false := by decide
  obtain ⟨c, rest, front, solid⟩ := named.1.solid (refused kind known)
  rw [strip_cons_of_isSpace (by decide), front, List.cons_append, strip_cons_of_not solid]

/-- A name is read after a space. -/
theorem result_spaced (named : Names kind name) (known : kind ∈ nameClasses) {more : List Char}
    (ends : Ends more) :
    (spaced (chars kind) (' ' :: (name.toList ++ more))).result = some (name.toList, more) := by
  have refused : ∀ kind ∈ nameClasses, ∀ c ∈ [' ', ',', ';'], kind.accepts c = false := by decide
  rw [spaced_eq, named.strip_cons known,
    result_chars named.1.1 named.1.2 (ends.refused (refused kind known))]

end Names

namespace AnimationPart

/-- The text of parts ends what is before it. -/
theorem ends_print (parts : List AnimationPart) : Ends (print parts) := by
  cases parts with
  | nil => exact fun c member => by cases member
  | cons part parts => exact Ends.space _

/-- A part after the texture is read as what it stands for. -/
theorem reads {part : AnimationPart} (valid : part.Valid) :
    Reads animateTail part.word.toList part.value := by
  cases part with
  | inl option =>
    obtain ⟨solid, result⟩ := AnimationOption.reads valid
    refine ⟨solid, fun tail ends => ?_⟩
    have found := result ends
    simp [animateTail, result_firstOf_cons, result_map, word, found, value]
  | inr number =>
    refine ⟨Made.solid valid (by decide), fun tail ends => ?_⟩
    have missed := (Names.of_digits valid).result_option (by decide) ends
    have digits := result_chars valid.1 valid.2 (ends.refused (by decide))
    simp [animateTail, result_firstOf_cons, result_map, word, missed, make, integer, result_bind,
      digits, value]

/-- Options are read up to a name. -/
theorem result_options {kind : CharClass} {name : String} (named : Names kind name)
    (known : kind ∈ nameClasses) {options : List AnimationOption}
    (valid : ∀ option ∈ options, option.Valid) {more : List Char} (ends : Ends more) :
    (spacedMany Argument.animate
      (print (options.map .inl) ++ ' ' :: (name.toList ++ more))).result =
        some (options.map AnimationOption.argument, ' ' :: (name.toList ++ more)) := by
  have each : ∀ item ∈ options.map fun option => (option.word.toList, option.argument),
      Reads Argument.animate item.1 item.2 := by
    intro item member
    obtain ⟨option, given, rfl⟩ := List.mem_map.mp member
    exact AnimationOption.reads (valid option given)
  have last : (Argument.animate (strip (' ' :: (name.toList ++ more)))).result = none := by
    rw [named.strip_cons known, named.result_option known ends]
  have read := result_spacedMany_words each (Ends.space _) last
  rw [List.flatMap_map, List.map_map] at read
  rw [print, List.flatMap_map]
  exact read

/-- Options and numbers are read up to the end. -/
theorem result_parts {parts : List AnimationPart} (valid : ∀ part ∈ parts, part.Valid) :
    (spacedMany animateTail (print parts)).result = some (parts.map value, []) := by
  have each : ∀ item ∈ parts.map fun part => (part.word.toList, part.value),
      Reads animateTail item.1 item.2 := by
    intro item member
    obtain ⟨part, given, rfl⟩ := List.mem_map.mp member
    exact reads (valid part given)
  have read := result_spacedMany_words each (ends_print []) rfl
  rw [List.flatMap_map, List.map_map, print, List.flatMap_nil, List.append_nil] at read
  exact read

/-- An animation with options before, between and after its names is read. -/
theorem result_phrase {object texture : String} (objectNamed : Names .objectName object)
    (textureNamed : Names .fileName texture) {before between : List AnimationOption}
    {parts : List AnimationPart} (valid : ∀ option ∈ before ++ between, option.Valid)
    (validParts : ∀ part ∈ parts, part.Valid) :
    (phrase (CommandKind.animate.word.toList ++ print
      (before.map .inl ++ .inr object :: (between.map .inl ++ .inr texture :: parts)))).result =
        some (.animate
          ⟨(before ++ between ++ parts.filterMap Sum.getLeft?).map AnimationOption.argument,
            object, texture, parts.filterMap Sum.getRight?⟩, []) := by
  rw [List.forall_mem_append] at valid
  -- What comes after the object: the options before the texture end the name of the object too.
  let middle := print (between.map .inl) ++ ' ' :: (texture.toList ++ print parts)
  have text : print
      (before.map .inl ++ .inr object :: (between.map .inl ++ .inr texture :: parts)) =
        print (before.map .inl) ++ ' ' :: (object.toList ++ middle) := by
    simp [middle, print, word]
  have ends : Ends middle := by
    cases between with
    | nil => exact Ends.space _
    | cons option options => exact Ends.space _
  have start (rest : List Char) :
      (keyword "animate" (CommandKind.animate.word.toList ++ rest)).result =
        some ("animate".toList, rest) := result_keyword_of_same rfl rest
  have first := result_options objectNamed (by decide) valid.1 ends
  have object := objectNamed.result_spaced (by decide) ends
  have second := result_options textureNamed (by decide) valid.2 (ends_print parts)
  have texture := textureNamed.result_spaced (by decide) (ends_print parts)
  have lefts : (parts.map value).filterMap Sum.getLeft? =
      (parts.filterMap Sum.getLeft?).map AnimationOption.argument := by
    rw [List.filterMap_map, List.map_filterMap]
    congr 1
    funext part
    cases part <;> rfl
  have rights : (parts.map value).filterMap Sum.getRight? = parts.filterMap Sum.getRight? := by
    rw [List.filterMap_map]
    congr 1
    funext part
    cases part <;> rfl
  refine result_phrase_of_word (by decide) ?_
  rw [text, phraseOf, animate, result_bind_of_some (start _), result_bind_of_some first,
    objectName, result_bind_of_some object, result_bind_of_some second, fileName,
    result_bind_of_some texture, result_bind_of_some (result_parts validParts), result_pure,
    lefts, rights, String.ofList_toList, String.ofList_toList, List.map_append, List.map_append]

/-- Up to the first name, the parts of an animation are options. -/
theorem exists_options {parts : List AnimationPart} {name : String} {names : List String}
    (named : parts.filterMap Sum.getRight? = name :: names) :
    ∃ (options : List AnimationOption) (later : List AnimationPart),
      parts = options.map .inl ++ .inr name :: later ∧ later.filterMap Sum.getRight? = names ∧
        parts.filterMap Sum.getLeft? = options ++ later.filterMap Sum.getLeft? := by
  induction parts with
  | nil => cases named
  | cons part parts ih =>
    cases part with
    | inl option =>
      obtain ⟨options, later, rfl, rights, lefts⟩ := ih named
      exact ⟨option :: options, later, rfl, rights, congrArg (option :: ·) lefts⟩
    | inr first =>
      obtain ⟨rfl, rights⟩ := List.cons.inj named
      exact ⟨[], parts, rfl, rights, rfl⟩

end AnimationPart

namespace AnimationOption

/-- The options are for different fields when there is at most one of each sort. -/
theorem nodup_names_iff (options : List AnimationOption) :
    (options.map name).Nodup ↔
      ¬(2 ≤ options.countP (·.isTag) ∨ 2 ≤ options.countP (·.isMask)) := by
  have tags : (options.map name).count "tag" = options.countP (·.isTag) := by
    rw [List.count, List.countP_map]
    refine List.countP_congr fun option _ => ?_
    cases option <;> simp [name, isTag]
  have masks : (options.map name).count "maskStatus" = options.countP (·.isMask) := by
    rw [List.count, List.countP_map]
    refine List.countP_congr fun option _ => ?_
    cases option <;> simp [name, isMask]
  rw [← tags, ← masks, List.nodup_iff_count_le_one]
  constructor
  · intro atMost
    have tag := atMost "tag"
    have mask := atMost "maskStatus"
    omega
  · intro few field
    by_cases there : field ∈ options.map name
    · obtain ⟨option, -, rfl⟩ := List.mem_map.mp there
      cases option
      · change (options.map name).count "tag" ≤ 1
        omega
      · change (options.map name).count "maskStatus" ≤ 1
        omega
    · rw [List.count_eq_zero_of_not_mem there]
      omega

/-- The fields of options are named after them. -/
theorem map_fst_field (options : List AnimationOption) :
    (options.map field).map Prod.fst = options.map name := by
  rw [List.map_map]
  rfl

/-- Settled options are for different fields when the options are. -/
theorem nodup_names_settled {options : List AnimationOption} (distinct : (options.map name).Nodup) :
    ((settled options).map name).Nodup := by
  cases masked : options.any (·.isMask) with
  | true => rwa [settled, masked]
  | false =>
    have unmasked : options.countP (·.isMask) = 0 := by
      rw [List.countP_eq_zero]
      simpa using masked
    rw [nodup_names_iff] at distinct
    rw [settled, masked, if_neg Bool.false_ne_true, nodup_names_iff, List.countP_append,
      List.countP_append, unmasked]
    have single : [mask false].countP (·.isTag) = 0 ∧ [mask false].countP (·.isMask) = 1 :=
      ⟨rfl, rfl⟩
    omega

/-- The status of the mask is set where no option is about it. -/
theorem withMaskStatus_eq (kind : CommandKind) (options : List AnimationOption) :
    Command.withMaskStatus ⟨kind, ⟨options.map field⟩⟩ =
      .ok ⟨kind, ⟨(settled options).map field⟩⟩ := by
  have there : OrderedMap.contains ⟨options.map field⟩ Flag.mask.field =
      options.any (·.isMask) := by
    rw [OrderedMap.contains, List.any_map]
    congr 1
    funext option
    cases option <;> rfl
  cases masked : options.any (·.isMask) with
  | true =>
    rw [Command.withMaskStatus, there, masked, settled, masked]
    rfl
  | false =>
    have absent : Flag.mask.field ∉ Command.fieldNames ⟨kind, ⟨options.map field⟩⟩ := by
      rw [Command.fieldNames, ← OrderedMap.contains_iff_mem_keys, there, masked]
      decide
    rw [Command.withMaskStatus, there, masked, Command.set_of_notMem absent, settled, masked,
      if_neg Bool.false_ne_true, if_neg Bool.false_ne_true, List.map_append]
    rfl

/-- Options for different fields leave the names and the numbers of an animation fields of their
own. -/
theorem nodup_append_animationFields {options : List AnimationOption}
    (distinct : (options.map name).Nodup) (object texture : String) (numbers : List String) :
    (options.map name ++ (animationFields object texture numbers).map Prod.fst).Nodup := by
  have others : ((animationFields object texture numbers).map Prod.fst).Nodup ∧
      ∀ other ∈ (animationFields object texture numbers).map Prod.fst,
        other ≠ "tag" ∧ other ≠ "maskStatus" := by
    cases frames : ((numbers.map saturated).drop 3).isEmpty <;> simp [animationFields, frames]
  refine List.nodup_append.mpr ⟨distinct, others.1, fun field given other member same => ?_⟩
  obtain ⟨option, -, rfl⟩ := List.mem_map.mp given
  obtain ⟨noTag, noMask⟩ := others.2 other member
  cases option with
  | tag digits => exact noTag same.symm
  | mask on => exact noMask same.symm

end AnimationOption

/-- An animation stands for the command of its options, its names and its numbers. -/
theorem Phrase.command?_animate (options : List AnimationOption) (object texture : String)
    (numbers : List String) :
    (Phrase.animate ⟨options.map AnimationOption.argument, object, texture, numbers⟩).command? =
      animated options object texture numbers := by
  have given : (options.map AnimationOption.argument).filterMap Argument.field? =
      options.map AnimationOption.field := by
    simp [List.filterMap_map, AnimationOption.field?_argument]
  have names := AnimationOption.map_fst_field
  rw [Phrase.command?, Phrase.resolve, Animation.command, given]
  by_cases distinct : (options.map AnimationOption.name).Nodup
  · have set : (Command.ofKind .animate).setAll (options.map AnimationOption.field) =
        .ok ⟨.animate, ⟨options.map AnimationOption.field⟩⟩ :=
      Command.setAll_of_nodup ((names options).symm ▸ distinct)
    have more : Command.setAll ⟨.animate,
        ⟨(AnimationOption.settled options).map AnimationOption.field⟩⟩
          (animationFields object texture numbers) =
        .ok ⟨.animate, ⟨(AnimationOption.settled options).map AnimationOption.field ++
          animationFields object texture numbers⟩⟩ := by
      have all := AnimationOption.nodup_append_animationFields
        (AnimationOption.nodup_names_settled distinct) object texture numbers
      rw [← names] at all
      exact Command.setAll_of_nodup all
    rw [set, animated, if_neg ((AnimationOption.nodup_names_iff options).mp distinct)]
    change Except.toOption (Command.withMaskStatus _ >>= _) = _
    rw [AnimationOption.withMaskStatus_eq]
    exact congrArg Except.toOption more
  · have twice := not_not.mp (mt (AnimationOption.nodup_names_iff options).mpr distinct)
    rw [animated, if_pos twice]
    cases set : (Command.ofKind .animate).setAll (options.map AnimationOption.field) with
    | error error => rfl
    | ok result =>
      have fresh : (Command.ofKind .animate).fieldNames.Nodup := List.nodup_nil
      have all := Command.nodup_of_setAll fresh set
      exact absurd (names options ▸ all) distinct

namespace AnimationPart

/-- What holds of the options and of the others among parts holds of each of them. -/
theorem forall_of_filterMap {parts : List AnimationPart} {ofOption : AnimationOption → Prop}
    {ofOther : String → Prop} (options : ∀ option ∈ parts.filterMap Sum.getLeft?, ofOption option)
    (others : ∀ other ∈ parts.filterMap Sum.getRight?, ofOther other) :
    ∀ part ∈ parts, Sum.elim ofOption ofOther part := by
  rintro (option | other) member
  · exact options option (List.mem_filterMap.mpr ⟨_, member, rfl⟩)
  · exact others other (List.mem_filterMap.mpr ⟨_, member, rfl⟩)

/-- The word of an option, of a name or of a number is tidy. -/
theorem tidy_word {part : AnimationPart}
    (made : Sum.elim AnimationOption.Valid
      (fun name => ∃ kind ∈ nameClasses, Made kind.accepts name) part) :
    Tidy part.word.toList := by
  have known : ∀ kind ∈ nameClasses, kind ∈ wordClasses := by decide
  match part, made with
  | .inl (.tag digits), made =>
    rw [word, Sum.elim_inl, AnimationOption.word, String.toList_append]
    exact Tidy.append (by decide) (Made.tidy made (by decide))
  | .inl (.mask on), _ => cases on <;> decide
  | .inr name, ⟨kind, listed, made⟩ => exact made.tidy (known kind listed)

end AnimationPart

/-- Wherever the options of an animation stand between its names and its numbers, its source is read
as one command, made of the options in their order and of the names and the numbers in theirs. -/
theorem parseRaw_animation {parts : List AnimationPart} {object texture : String}
    {numbers : List String}
    (named : parts.filterMap Sum.getRight? = object :: texture :: numbers)
    (objectNamed : Names .objectName object) (textureNamed : Names .fileName texture)
    (counted : ∀ number ∈ numbers, Made CharClass.digit.accepts number)
    (tagged : ∀ option ∈ parts.filterMap Sum.getLeft?, option.Valid) :
    parseRaw ("create animate " ++ " ".intercalate (parts.map AnimationPart.word)) =
      .ok [⟨.create, [animated (parts.filterMap Sum.getLeft?) object texture numbers]⟩] := by
  have made : ∀ name ∈ parts.filterMap Sum.getRight?, ∃ kind ∈ nameClasses,
      Made kind.accepts name := by
    rw [named, List.forall_mem_cons, List.forall_mem_cons]
    exact ⟨⟨_, .head _, objectNamed.1⟩, ⟨_, .tail _ (.head _), textureNamed.1⟩, fun number given =>
      ⟨_, .tail _ (.tail _ (.head _)), counted number given⟩⟩
  have tidy :
      Tidy ("create animate " ++ " ".intercalate (parts.map AnimationPart.word)).toList := by
    rw [String.toList_append]
    refine Tidy.append (by decide) (tidy_intercalate (by decide) fun word member => ?_)
    obtain ⟨part, given, rfl⟩ := List.mem_map.mp member
    exact AnimationPart.tidy_word (AnimationPart.forall_of_filterMap tagged made part given)
  have text : clean ("create animate " ++ " ".intercalate (parts.map AnimationPart.word)).toList =
      Trigger.create.word.toList ++ (' ' ::
        (CommandKind.animate.word.toList ++ AnimationPart.print parts)) := by
    rw [clean_of_forall tidy]
    cases parts with
    | nil => cases named
    | cons part parts =>
      rw [String.toList_append, List.map_cons, Item.toList_intercalate_cons, List.flatMap_map]
      rfl
  obtain ⟨before, later, rfl, others, first⟩ := AnimationPart.exists_options named
  obtain ⟨between, tail, rfl, rfl, second⟩ := AnimationPart.exists_options others
  rw [first, second, ← List.append_assoc] at tagged ⊢
  rw [List.forall_mem_append] at tagged
  have found := AnimationPart.result_phrase objectNamed textureNamed tagged.1
    (AnimationPart.forall_of_filterMap tagged.2 counted)
  refine (parseRaw_head_iff text found).mpr ⟨[], [], continues_nil, ?_⟩
  rw [Phrase.command?_animate]

/-- Options before the names and among the numbers, a texture that begins with a word of the mask,
and a number that is too great. -/
theorem parseRaw_animation_between :
    parseRaw "create animate tag=7 Tag maskot 2 nomask 3 4 18446744073709551616 5" =
      .ok [⟨.create, [some ⟨.animate, ⟨[("tag", .integer 7), ("maskStatus", .bool false),
        ("targetName", .text "tag"), ("texture", .text "maskot"), ("imageCount", .integer 2),
        ("frameCount", .integer 3), ("frameDelay", .integer 4),
        ("frameList", .integers [18446744073709551615, 5])]⟩⟩]⟩] := by
  let parts : List AnimationPart := [.inl (.tag "7"), .inr "Tag", .inr "maskot", .inr "2",
    .inl (.mask false), .inr "3", .inr "4", .inr "18446744073709551616", .inr "5"]
  have read := @parseRaw_animation parts "Tag" "maskot" ["2", "3", "4", "18446744073709551616", "5"]
    rfl (by decide +kernel) (by decide +kernel) (by decide) (by decide)
  have text : "create animate " ++ " ".intercalate (parts.map AnimationPart.word) =
      "create animate tag=7 Tag maskot 2 nomask 3 4 18446744073709551616 5" := by decide +kernel
  have lower : Text.lowercase "Tag" = "tag" := by decide +kernel
  rw [text, animated, animationFields, lower] at read
  exact read

end ActionString
