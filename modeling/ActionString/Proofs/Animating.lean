import ActionString.Proofs.AnimationParts

/-!
# Completing an animation

An animation has an object and a texture, with options before, between and after them and numbers at
its end. What leads to the texture leads to every other texture or option there that begins alike. So
what is looked for up to the texture is part of it or follows the key of the tag, and what is looked
for behind it completes the animation as it completes the parts there.
-/

namespace ActionString.Grammar

open Rule Word

variable {kind : CharClass} {front rest before after text : List Char} {item : Expected}

/-! ### The texture -/

/-- The rest of an animation behind its object and the options that are given. -/
def texturing (given : List Argument) (object : List Char) : Rule Phrase := do
  let between ← spacedMany Argument.animate
  let texture ← spaced fileName
  let tail ← spacedMany animateTail
  return .animate {
    options := given ++ between ++ tail.filterMap Sum.getLeft?
    object := String.ofList object
    texture := String.ofList texture
    numbers := tail.filterMap Sum.getRight? }

/-- An animation behind its word. -/
def animation : Rule Phrase := do
  let before ← spacedMany Argument.animate
  let object ← spaced objectName
  texturing before object

/-- The command that animates an object is its word with the animation behind it. -/
theorem result_animate {spelt : List Char}
    (same : spelt.map Char.toLower = "animate".toList.map Char.toLower) (text : List Char) :
    (phraseOf .animate (spelt ++ text)).result = (animation text).result := by
  change ((keyword "animate" >>= fun _ => animation) (spelt ++ text)).result = _
  exact result_bind_of_some (result_keyword_of_same same text) _

/-- The animation that is made of what comes before its texture, the texture and what comes behind
it. -/
def animationOf (given : List Argument) (object texture : List Char)
    (parts : List (Argument ⊕ String)) : Phrase :=
  .animate ⟨given ++ parts.filterMap Sum.getLeft?, String.ofList object, String.ofList texture,
    parts.filterMap Sum.getRight?⟩

/-- Names behind which the same comes are read up to the same place. -/
theorem head?_append_of_head (same : text.head? = rest.head?) (front : List Char) :
    (front ++ text).head? = (front ++ rest).head? := by
  rw [List.head?_append, List.head?_append, same]

/-- A texture behind which no option is cut short is read, and the rest behind it. -/
theorem result_texturing {texture last : List Char} {parts : List (Argument ⊕ String)}
    (given : List Argument) (object : List Char) (word : WordBefore .fileName texture text)
    (missed : (Argument.animate (texture ++ text)).result = none)
    (tail : (spacedMany animateTail text).result = some (parts, last)) :
    (texturing given object (texture ++ text)).result =
      some (animationOf given object texture parts, last) := by
  have stripped := word.strip_append (fun _ => refused_of_isSpace (by decide)) text
  have options : (spacedMany Argument.animate (texture ++ text)).result =
      some ([], texture ++ text) := by
    rw [spacedMany_of_none (by rw [stripped, missed])]
  have name : (spaced fileName (texture ++ text)).result = some (texture, text) := by
    rw [spaced_eq, stripped]
    exact result_chars word.1 word.2.1 word.2.2
  rw [texturing, result_bind_of_some options, result_bind_of_some name, result_bind_of_some tail,
    List.append_nil]
  rfl

/-- Options and spaces in front of a texture go with the options given before. -/
theorem result_texturing_append {given between : List Argument} {object gap : List Char}
    (found : (spacedMany Argument.animate (front ++ (gap ++ rest))).result =
      some (between, gap ++ rest)) (blanks : blank gap = true) (same : text.head? = rest.head?) :
    (texturing given object (front ++ (gap ++ text))).result =
      (texturing (given ++ between) object text).result := by
  obtain ⟨others, last, read⟩ := exists_spacedMany Argument.animate text
  obtain ⟨left, behind, place⟩ := exists_spacedMany_gap blanks read
  have options := result_options_append found (head?_append_of_head same gap) behind
  have name : (spaced fileName left).result = (spaced fileName last).result := by
    obtain rfl | ⟨-, rfl⟩ := place
    · rfl
    · rw [spaced_eq, spaced_eq, strip_append_of_blank blanks]
  rw [texturing, texturing, result_bind_of_some options, result_bind_of_some read, result_bind,
    result_bind, name]
  simp only [List.append_assoc]

/-- A key of a class of names ends before a whole name does. -/
theorem WordBefore.length_le (word : WordBefore kind front rest) {key : List Char}
    (made : ∀ c ∈ key, kind.accepts c = true) (cut : front ++ rest = key ++ after) :
    rest.length ≤ after.length := by
  by_contra shorter
  obtain ⟨inner, whole, left⟩ | ⟨inner, whole, left⟩ := List.append_eq_append_iff.mp cut
  · cases inner with
    | nil => exact shorter (by rw [left]; rfl)
    | cons c inner =>
      have accepted := made c (by rw [whole]; exact List.mem_append_right _ (.head _))
      rw [word.2.2 c (by rw [left]; rfl)] at accepted
      cases accepted
  · exact shorter (by rw [left, List.length_append]; omega)

/-- No equals sign comes in front of a texture. -/
theorem head?_of_texturing {given : List Argument} {object : List Char} {value : Phrase}
    (found : (texturing given object text).result = some (value, rest)) : text.head? ≠ some '=' := by
  intro head
  obtain ⟨tail, rfl⟩ := List.head?_eq_some_iff.mp head
  have options : (spacedMany Argument.animate ('=' :: tail)).result = some ([], '=' :: tail) := by
    rw [spacedMany_of_none rfl]
  rw [texturing, result_bind_of_some options] at found
  cases found

/-- An animation that is read has an object, behind which the rest is read. What is missed behind the
object is missed by the rest. -/
theorem exists_object {value : Phrase} (found : (animation text).result = some (value, rest)) :
    ∃ front options object last, text = front ++ last ∧
      (texturing options object last).result = some (value, rest) ∧
      (∀ text : List Char, text.head? = last.head? →
        (animation (front ++ text)).result = (texturing options object text).result) ∧
      ∀ after item, (after, item) ∈ outside 0 (animation text).trace → after.length < last.length →
        (after, item) ∈ outside 0 (texturing options object last).trace := by
  rw [animation, result_bind, Option.bind_eq_some_iff] at found
  obtain ⟨⟨options, left⟩, first, found⟩ := found
  rw [result_bind, Option.bind_eq_some_iff] at found
  obtain ⟨⟨object, last⟩, second, found⟩ := found
  have other := head?_of_texturing found
  have missed := missed_of_spacedMany first
  rw [spaced_eq] at second
  have shorter : last.length < (strip left).length := Consuming.shorter second
  obtain ⟨cut, made⟩ := of_result_chars second
  have word : WordBefore .objectName object last := made
  obtain ⟨front, rfl⟩ := Forward.suffix first
  obtain ⟨gap, whole, blanks, -⟩ := exists_dropWhile_eq isSpace left
  change left = gap ++ strip left at whole
  rw [cut] at whole missed
  refine ⟨front ++ gap ++ object, options, object, last, ?_, found, fun text same => ?_,
    fun after item member within => ?_⟩
  · rw [List.append_assoc, List.append_assoc, ← whole]
  · have again := result_option_eq_none_of_head (by simp) word other missed same
    have stripped : strip (gap ++ (object ++ text)) = object ++ text := by
      rw [strip_append_of_blank (List.all_eq_true.mpr blanks)]
      exact word.strip_append (fun _ => refused_of_isSpace (by decide)) text
    have ended : (spacedMany Argument.animate (gap ++ (object ++ text))).result =
        some ([], gap ++ (object ++ text)) := by
      rw [spacedMany_of_none (by rw [stripped, again])]
    rw [whole] at first
    have begun := result_options_append first
      (head?_append_of_head (head?_append_of_head same object) gap) ended
    have name : (spaced objectName (gap ++ (object ++ text))).result = some (object, text) := by
      rw [spaced_eq, stripped]
      exact result_chars word.1 word.2.1 (word.of_head fun c member => same ▸ member).2.2
    rw [animation, List.append_assoc, List.append_assoc, result_bind_of_some begun,
      result_bind_of_some name, List.append_nil]
  · have key : ∀ c ∈ "tag".toList, CharClass.objectName.accepts c = true := by decide
    obtain here | ⟨_, _, read, member⟩ := mem_outside_bind_iff.mp member
    · obtain ⟨before, split, misses⟩ := Misses.of_mem here
      obtain early | ⟨tag, -⟩ | ⟨tag, -⟩ := of_misses_options misses (split ▸ first)
      · omega
      · have := word.length_le key (cut.symm.trans tag)
        omega
      · exact absurd (cut.symm.trans tag) (word.ne_key other (by decide) key after)
    cases first.symm.trans read
    obtain here | ⟨_, _, read, member⟩ := mem_outside_bind_iff.mp member
    · rw [spaced_eq] at here
      obtain ⟨before, split, misses⟩ := Misses.of_mem here
      obtain ⟨rfl, -⟩ := misses.chars
      rw [split, List.nil_append] at shorter
      omega
    rw [spaced_eq] at read
    cases second.symm.trans read
    exact member

/-- The rest of an animation has a texture, in front of which options go with those given before.
What is missed behind its beginning is missed behind the texture, unless the texture is the key of
the tag. -/
theorem exists_texture {given : List Argument} {object : List Char} {value : Phrase}
    (found : (texturing given object text).result = some (value, rest)) :
    ∃ front between texture last parts, text = front ++ (texture ++ last) ∧
      WordBefore .fileName texture last ∧ (Argument.animate (texture ++ last)).result = none ∧
      (spacedMany animateTail last).result = some (parts, rest) ∧
      (∀ text : List Char, text.head? = texture.head? → (texturing given object (front ++ text)).result =
        (texturing (given ++ between) object text).result) ∧
      ∀ after item, (after, item) ∈ outside 0 (texturing given object text).trace →
        after.length ≤ last.length → (after, item) ∈ outside 0 (spacedMany animateTail last).trace ∨
          texture = "tag".toList ∧ (last = after ∧ item = .literal "=" ∨
            last = '=' :: after ∧ item = .charClass CharClass.digit.description) := by
  rw [texturing, result_bind, Option.bind_eq_some_iff] at found
  obtain ⟨⟨between, left⟩, first, found⟩ := found
  rw [result_bind, Option.bind_eq_some_iff] at found
  obtain ⟨⟨texture, last⟩, second, found⟩ := found
  rw [result_bind, Option.bind_eq_some_iff] at found
  obtain ⟨⟨parts, tail⟩, third, same⟩ := found
  obtain ⟨-, rfl⟩ : _ ∧ rest = tail := by simpa [eq_comm] using same
  have missed := missed_of_spacedMany first
  rw [spaced_eq] at second
  have shorter : last.length < (strip left).length := Consuming.shorter second
  obtain ⟨cut, made⟩ := of_result_chars second
  have word : WordBefore .fileName texture last := made
  obtain ⟨front, rfl⟩ := Forward.suffix first
  obtain ⟨gap, whole, blanks, -⟩ := exists_dropWhile_eq isSpace left
  change left = gap ++ strip left at whole
  rw [cut] at whole missed
  refine ⟨front ++ gap, between, texture, last, parts, ?_, word, missed, third, fun text same => ?_,
    fun after item member within => ?_⟩
  · rw [List.append_assoc, ← whole]
  · rw [whole] at first
    obtain ⟨c, others, rfl⟩ := List.exists_cons_of_ne_nil word.1
    rw [List.append_assoc]
    exact result_texturing_append first (List.all_eq_true.mpr blanks) same
  · have key : ∀ c ∈ "tag".toList, CharClass.fileName.accepts c = true := by decide
    obtain here | ⟨_, _, read, member⟩ := mem_outside_bind_iff.mp member
    · right
      obtain ⟨before, split, misses⟩ := Misses.of_mem here
      obtain early | ⟨tag, rfl⟩ | ⟨tag, rfl⟩ := of_misses_options misses (split ▸ first)
      · omega
      · have least := word.length_le key (cut.symm.trans tag)
        obtain ⟨rfl, rfl⟩ := List.append_inj' (cut.symm.trans tag) (by omega)
        exact ⟨rfl, .inl ⟨rfl, rfl⟩⟩
      · have split : texture ++ last = "tag".toList ++ '=' :: after := cut.symm.trans tag
        have same := word.unique ⟨by decide, key, fun c head => by cases head; decide⟩ split
        rw [← same] at split ⊢
        exact ⟨List.append_cancel_right split, .inr ⟨rfl, rfl⟩⟩
    left
    cases first.symm.trans read
    obtain here | ⟨_, _, read, member⟩ := mem_outside_bind_iff.mp member
    · rw [spaced_eq] at here
      obtain ⟨before, split, misses⟩ := Misses.of_mem here
      obtain ⟨rfl, -⟩ := misses.chars
      rw [split, List.nil_append] at shorter
      omega
    rw [spaced_eq] at read
    cases second.symm.trans read
    obtain here | ⟨_, _, read, member⟩ := mem_outside_bind_iff.mp member
    · exact here
    · cases member

/-! ### The animation -/

/-- What is in front of the texture of an animation leads to it, whichever texture or option begins
there with the same character. -/
def LeadsToTexture (lead : List Char) (first : Option Char) (given : List Argument)
    (object : List Char) : Prop :=
  ∀ ⦃text : List Char⦄, text.head? = first →
    (animation (lead ++ text)).result = (texturing given object text).result

/-- A text is an animation and a word of the flag behind it, which is another option. -/
structure EndsWithMask (rule : Rule Phrase) (before front : List Char) (word : String)
    (animation : Animation) : Prop where
  member : word ∈ maskWords
  whole : before = front ++ word.toList
  found : ∃ rest, (rule front).result = some (.animate animation, rest) ∧ blank rest = true
  ended : (rule before).result = some (.animate { animation with
    options := animation.options ++ [.status .mask word] }, [])

namespace LeadsToTexture

variable {lead texture : List Char} {given : List Argument} {object : List Char}

/-- A texture is read, and the rest behind it. -/
theorem result_animation (leads : LeadsToTexture lead texture.head? given object)
    (word : WordBefore .fileName texture text)
    (missed : (Argument.animate (texture ++ text)).result = none)
    {parts : List (Argument ⊕ String)} {last : List Char}
    (tail : (spacedMany animateTail text).result = some (parts, last)) :
    (animation (lead ++ (texture ++ text))).result =
      some (animationOf given object texture parts, last) := by
  rw [leads ?_, result_texturing given object word missed tail]
  obtain ⟨c, others, rfl⟩ := List.exists_cons_of_ne_nil word.1
  rfl

/-- A longer name of a file in place of a texture is the texture, unless it is a word of the flag. -/
theorem result_animation_longer {more : List Char}
    (leads : LeadsToTexture lead texture.head? given object)
    (word : WordBefore .fileName texture rest)
    (made : ∀ c ∈ more, CharClass.fileName.accepts c = true)
    (free : ∀ mask ∈ maskWords, texture ++ more ≠ mask.toList) :
    (animation (lead ++ (texture ++ more))).result =
      some (animationOf given object (texture ++ more) [], []) := by
  have whole : WordBefore .fileName (texture ++ more) [] := wordBefore_nil (by simp [word.1])
    (List.forall_mem_append.mpr ⟨word.2.1, made⟩)
  have none := (result_option_eq_none_iff (by simp) whole (by simp)).mpr fun mask member same =>
    absurd same (free mask member)
  have same : texture.head? = (texture ++ more).head? := by
    obtain ⟨c, others, rfl⟩ := List.exists_cons_of_ne_nil word.1
    rfl
  have read := result_animation (same ▸ leads) whole none (result_spacedMany_nil _)
  rwa [List.append_nil] at read

/-- Behind a texture that something comes behind, every text that begins alike is read as parts. -/
theorem result_animation_of_head {c : Char} {parts : List (Argument ⊕ String)} {last : List Char}
    (leads : LeadsToTexture lead texture.head? given object)
    (word : WordBefore .fileName texture (c :: rest))
    (missed : (Argument.animate (texture ++ c :: rest)).result = none) (other : c ≠ '=')
    (same : text.head? = some c) (tail : (spacedMany animateTail text).result = some (parts, last)) :
    (animation (lead ++ texture ++ text)).result =
      some (animationOf given object texture parts, last) := by
  rw [List.append_assoc]
  exact leads.result_animation (word.of_head fun d member => same.symm.trans member)
    (result_option_eq_none_of_head (by simp) word (by simpa using other) missed same) tail

end LeadsToTexture

/-- An animation that is read has a texture, which what comes before leads to. What is missed behind
its beginning is missed behind it, unless it is the key of the tag. -/
theorem exists_leadsToTexture {value : Phrase}
    (found : (animation text).result = some (value, rest)) :
    ∃ lead given object texture last parts, text = lead ++ (texture ++ last) ∧
      LeadsToTexture lead texture.head? given object ∧ WordBefore .fileName texture last ∧
      (Argument.animate (texture ++ last)).result = none ∧
      (spacedMany animateTail last).result = some (parts, rest) ∧
      ∀ after item, (after, item) ∈ outside 0 (animation text).trace → after.length ≤ last.length →
        (after, item) ∈ outside 0 (spacedMany animateTail last).trace ∨
          texture = "tag".toList ∧ (last = after ∧ item = .literal "=" ∨
            last = '=' :: after ∧ item = .charClass CharClass.digit.description) := by
  obtain ⟨first, options, object, middle, rfl, read, again, furthest⟩ := exists_object found
  obtain ⟨second, between, texture, last, parts, rfl, word, missed, tail, onwards, places⟩ :=
    exists_texture read
  obtain ⟨d, others, rfl⟩ := List.exists_cons_of_ne_nil word.1
  refine ⟨first ++ second, options ++ between, object, d :: others, last, parts,
    by rw [List.append_assoc], fun text same => ?_, word, missed, tail,
    fun after item member within => places after item (furthest after item member ?_) within⟩
  · have alike : text.head? = (d :: others ++ last).head? := same
    rw [List.append_assoc, again _ (head?_append_of_head alike second), onwards text same]
  · simp only [List.length_append, List.length_cons]
    omega

/-- A word of the flag in place of the texture is an option, without a texture behind it. -/
theorem result_texturing_mask {word : String} (member : word ∈ maskWords) (given : List Argument)
    (object : List Char) : (texturing given object word.toList).result = none := by
  have options : (spacedMany Argument.animate word.toList).result =
      some ([.status .mask word], []) := by
    obtain rfl | rfl : word = "mask" ∨ word = "nomask" := by simpa [maskWords] using member
    · exact result_spacedMany_of_some rfl (result_spacedMany_nil _)
    · exact result_spacedMany_of_some rfl (result_spacedMany_nil _)
  rw [texturing, result_bind_of_some options]
  rfl

/-- With a character of a file name behind it, the word of the flag at the end of an animation is no
option any more. -/
theorem EndsWithMask.exists_animation_of_glued {word : String} {made : Animation}
    (mask : EndsWithMask animation before front word made) {c : Char}
    (glued : CharClass.fileName.accepts c = true) (more : List Char) :
    ∃ rest, (animation (before ++ c :: more)).result = some (.animate made, rest) ∧
      strip rest = word.toList ++ c :: more := by
  obtain ⟨member, rfl, ⟨rest, read, blanks⟩, ended⟩ := mask
  obtain ⟨lead, given, object, texture, behind, parts, rfl, leads, named, missed, tail, -⟩ :=
    exists_leadsToTexture read
  have value := leads.result_animation named missed tail
  rw [read] at value
  obtain ⟨same, -⟩ := Prod.mk.inj (Option.some.inj value)
  cases behind with
  | nil =>
    -- Right behind the texture, the word would be part of it.
    exfalso
    have name : ∀ word ∈ maskWords, word.toList ≠ [] ∧
        ∀ c ∈ word.toList, CharClass.fileName.accepts c = true := by decide
    obtain ⟨nonempty, accepted⟩ := name word member
    rw [List.append_nil, List.append_assoc] at ended
    by_cases free : ∀ mask ∈ maskWords, texture ++ word.toList ≠ mask.toList
    · have longer := leads.result_animation_longer named accepted free
      rw [ended] at longer
      obtain ⟨changed, -⟩ := Prod.mk.inj (Option.some.inj longer)
      have short : made.texture = String.ofList texture :=
        congrArg Animation.texture (Phrase.animate.inj same)
      have long : made.texture = String.ofList (texture ++ word.toList) :=
        congrArg Animation.texture (Phrase.animate.inj changed)
      rw [short, String.ofList_inj, List.self_eq_append_right] at long
      exact nonempty long
    · push Not at free
      obtain ⟨mask, inside, same⟩ := free
      have begins : (texture ++ word.toList).head? = texture.head? := by
        obtain ⟨d, others, rfl⟩ := List.exists_cons_of_ne_nil named.1
        rfl
      rw [leads begins, same, result_texturing_mask inside] at ended
      cases ended
  | cons d others =>
    have other : d ≠ '=' := by
      rintro rfl
      rw [spacedMany_of_none rfl] at tail
      cases tail
      cases blanks
    obtain ⟨values, last, next⟩ := exists_spacedMany animateTail (d :: others ++ word.toList)
    have reads := leads.result_animation_of_head named missed other rfl next
    rw [← List.append_assoc, List.append_assoc lead, ended] at reads
    obtain ⟨-, rfl⟩ := Prod.mk.inj (Option.some.inj reads)
    obtain ⟨last, again, stripped⟩ := exists_parts_of_glued member tail blanks next glued more
    have whole := leads.result_animation_of_head named missed other rfl again
    refine ⟨last, ?_, stripped⟩
    rw [same, ← whole]
    simp only [List.append_assoc]

/-- With a character of a file name behind it, the word of the flag at the end of a command that
animates an object is no option any more. -/
theorem EndsWithMask.exists_animate_of_glued {word : String} {made : Animation}
    (mask : EndsWithMask (phraseOf .animate) before front word made) {c : Char}
    (glued : CharClass.fileName.accepts c = true) (more : List Char) :
    ∃ rest, (phraseOf .animate (before ++ c :: more)).result = some (.animate made, rest) ∧
      strip rest = word.toList ++ c :: more := by
  obtain ⟨member, rfl, ⟨rest, read, blanks⟩, ended⟩ := mask
  obtain ⟨⟨spelt, middle⟩, begun, -⟩ :=
    Option.bind_eq_some_iff.mp ((result_bind ..).symm.trans read)
  have spelling := stripFolded_of_result_keyword begun
  obtain rfl := Text.eq_append_of_stripFolded spelling
  have reads := result_animate (Text.map_toLower_of_stripFolded spelling)
  rw [reads] at read
  rw [List.append_assoc, reads] at ended
  have mask : EndsWithMask animation (middle ++ word.toList) middle word made :=
    ⟨member, rfl, ⟨rest, read, blanks⟩, ended⟩
  obtain ⟨last, again, stripped⟩ := mask.exists_animation_of_glued glued more
  exact ⟨last, by rw [List.append_assoc spelt, List.append_assoc spelt, reads, again], stripped⟩

namespace LeadsToTexture

variable {lead texture : List Char} {given : List Argument} {object : List Char}

/-- What begins a part can also be part of a texture, and not of a word of the flag. -/
theorem exists_more (member : item ∈ partItems) : ∃ more c, item.Opens (more ++ [c]) ∧
    (∀ d ∈ more ++ [c], CharClass.fileName.accepts d = true) ∧ c ≠ 'k' := by
  simp only [partItems, optionItems, List.mem_cons, List.mem_map] at member
  obtain rfl | rfl | ⟨word, member, rfl⟩ := member
  · exact ⟨[], '0', ⟨.digit, rfl, '0', rfl, by decide⟩, by decide, by decide⟩
  · exact ⟨"tag".toList, 'x', ⟨['x'], rfl⟩, by decide, by decide⟩
  · have made : ∀ word ∈ maskWords, ∀ c ∈ word.toList ++ ['x'],
        CharClass.fileName.accepts c = true := by decide
    exact ⟨word.toList, 'x', ⟨['x'], rfl⟩, made word member, by decide⟩

/-- Right behind a texture, what begins a part can be more of the texture. -/
theorem completes_of_begins (leads : LeadsToTexture lead texture.head? given object)
    (word : WordBefore .fileName texture rest)
    (missed : (Argument.animate (texture ++ rest)).result = none)
    (begins : item = .endOfInput ∨ item ∈ partItems) :
    Completes animation (lead ++ texture) item := by
  have reads {more : List Char} (made : ∀ c ∈ more, CharClass.fileName.accepts c = true)
      (free : ∀ mask ∈ maskWords, texture ++ more ≠ mask.toList) :
      ∃ value, (animation (lead ++ texture ++ more)).result = some (value, []) :=
    ⟨_, by rw [List.append_assoc, leads.result_animation_longer word made free]⟩
  obtain rfl | member := begins
  · have free : ∀ mask ∈ maskWords, texture ++ [] ≠ mask.toList := by
      intro mask member same
      rw [List.append_nil] at same
      rw [result_option_eq_some_iff.mpr (.mask member same word)] at missed
      cases missed
    obtain ⟨value, read⟩ := reads (List.forall_mem_nil _) free
    exact ⟨[], value, [], rfl, read, rfl⟩
  · obtain ⟨more, c, opens, made, last⟩ := exists_more member
    have free : ∀ mask ∈ maskWords, texture ++ (more ++ [c]) ≠ mask.toList := by
      intro mask member same
      have ends : ∀ mask ∈ maskWords, mask.toList.getLast? = some 'k' := by decide
      have other := ends mask member
      rw [← same, ← List.append_assoc, List.getLast?_concat] at other
      exact last (Option.some.inj other)
    obtain ⟨value, read⟩ := reads made free
    exact ⟨_, value, [], opens, read, rfl⟩

/-- Behind the key of the tag as a texture, the tag and another texture can come. -/
theorem completes_of_tag (leads : LeadsToTexture lead "tag".toList.head? given object) :
    Completes animation (lead ++ "tag".toList) (.literal "=") ∧
      Completes animation (lead ++ "tag=".toList) (.charClass CharClass.digit.description) := by
  have is : IsOption "tag=0".toList [' ', 'a'] (.parameter "tag" (.integer "0")) :=
    .tag rfl (⟨by decide, by decide, fun c head => by cases head; decide⟩ : WordBefore _ ['0'] _)
  have options : (spacedMany Argument.animate "tag=0 a".toList).result =
      some ([.parameter "tag" (.integer "0")], [' ', 'a']) :=
    result_spacedMany_of_some (result_option_eq_some_iff.mpr is) (by rw [spacedMany_of_none rfl])
  have name : (spaced fileName [' ', 'a']).result = some (['a'], []) := rfl
  obtain ⟨value, read⟩ : ∃ value, (animation (lead ++ "tag=0 a".toList)).result =
      some (value, []) := by
    rw [leads (rfl : "tag=0 a".toList.head? = _), texturing, result_bind_of_some options,
      result_bind_of_some name, result_bind_of_some (result_spacedMany_nil _)]
    exact ⟨_, rfl⟩
  constructor
  · exact ⟨"=0 a".toList, value, [], ⟨"0 a".toList, rfl⟩, by rw [List.append_assoc]; exact read, rfl⟩
  · exact ⟨"0 a".toList, value, [], ⟨.digit, rfl, '0', rfl, by decide⟩,
      by rw [List.append_assoc]; exact read, rfl⟩

/-- What goes on behind the texture goes on in the animation. -/
theorem completes_or_endsWithMask {c : Char}
    (leads : LeadsToTexture lead texture.head? given object)
    (word : WordBefore .fileName texture (c :: rest))
    (missed : (Argument.animate (texture ++ c :: rest)).result = none)
    (goesOn : GoesOnOrMask (c :: before) item) :
    Completes animation (lead ++ texture ++ c :: before) item ∨ item ∈ partItems ∧
      ∃ front word made, EndsWithMask animation (lead ++ texture ++ c :: before) front word made := by
  have reads {text : List Char} {parts : List (Argument ⊕ String)} {last : List Char}
      (same : text.head? = some c) (tail : (spacedMany animateTail text).result = some (parts, last)) :
      (animation (lead ++ texture ++ text)).result =
        some (animationOf given object texture parts, last) :=
    leads.result_animation_of_head word missed (by simpa using goesOn.other) same tail
  obtain ⟨more, parts, last, opens, found, ended⟩ | ⟨member, start, flag, parts, mask⟩ :=
    goesOn.completes
  · have whole := reads (rfl : (c :: before ++ more).head? = some c) found
    rw [← List.append_assoc] at whole
    exact .inl ⟨more, _, last, opens, whole, ended⟩
  · -- The word of the flag does not follow the texture directly, as it would be part of it.
    have same : start.head? = some c := by
      have whole := mask.whole
      cases start with
      | nil =>
        have made : ∀ word ∈ maskWords, ∀ c ∈ word.toList,
            CharClass.fileName.accepts c = true := by decide
        have refused := word.2.2 c rfl
        rw [made flag mask.member c (by rw [← List.nil_append flag.toList, ← whole]; exact .head _)]
          at refused
        cases refused
      | cons d start => rw [(List.cons.inj whole).1]; rfl
    obtain ⟨last, found, ended⟩ := mask.found
    refine .inr ⟨member, lead ++ texture ++ start, flag, _, mask.member, ?_, ⟨last, reads same found,
      ended⟩, ?_⟩
    · rw [mask.whole, ← List.append_assoc]
    · rw [reads rfl mask.ended]
      simp [animationOf]

end LeadsToTexture

/-- What an animation looks for furthest completes the text before it, or is missed behind a word of
the flag. -/
theorem animation_completes_or_endsWithMask {value : Phrase}
    (found : (animation (before ++ after)).result = some (value, rest))
    (within : after.length ≤ (strip rest).length)
    (looked : Misses animation before after item ∨ item = .endOfInput ∧ after = strip rest) :
    Completes animation before item ∨
      item ∈ partItems ∧ ∃ front word made, EndsWithMask animation before front word made := by
  obtain ⟨lead, given, object, texture, behind, parts, cut, leads, word, missed, tail, places⟩ :=
    exists_leadsToTexture found
  have inBehind : (strip rest).length ≤ behind.length :=
    (strip_suffix rest).length_le.trans (Forward.length_le tail)
  have place : (∃ front, behind = front ++ after ∧ Awaits animateTail front after item) ∨
      texture = "tag".toList ∧ (behind = after ∧ item = .literal "=" ∨
        behind = '=' :: after ∧ item = .charClass CharClass.digit.description) := by
    obtain misses | ⟨rfl, rfl⟩ := looked
    · obtain member | tag := places after item misses (by omega)
      · obtain ⟨front, rfl, misses⟩ := Misses.of_mem member
        exact .inl ⟨front, rfl, .inl misses⟩
      · exact .inr tag
    · obtain ⟨front, rfl⟩ := (strip_suffix rest).trans (Forward.suffix tail)
      exact .inl ⟨front, rfl, .inr ⟨rfl, parts, rest, tail, rfl⟩⟩
  have whole (front : List Char) (split : behind = front ++ after) :
      before = lead ++ texture ++ front := by
    refine (List.append_left_inj after).mp ?_
    rw [cut, split]
    simp only [List.append_assoc]
  obtain ⟨front, split, awaits⟩ | ⟨tag, ⟨same, rfl⟩ | ⟨same, rfl⟩⟩ := place
  · have goesOn := goesOnOrMask_of_awaits awaits
    rw [whole front split]
    cases front with
    | nil =>
      rw [List.append_nil]
      exact .inl (leads.completes_of_begins word missed (goesOn.begins rfl))
    | cons c front =>
      rw [split] at word missed
      exact leads.completes_or_endsWithMask word missed goesOn
  · rw [whole [] same, List.append_nil, tag]
    exact .inl (LeadsToTexture.completes_of_tag (tag ▸ leads)).1
  · rw [whole ['='] same, tag, List.append_assoc]
    exact .inl (LeadsToTexture.completes_of_tag (tag ▸ leads)).2

/-- What the command that animates an object looks for furthest completes the text before it, or is
missed behind a word of the flag. -/
theorem animate_completes_or_endsWithMask {value : Phrase}
    (found : (phraseOf .animate (before ++ after)).result = some (value, rest))
    (within : after.length ≤ (strip rest).length)
    (looked : Misses (phraseOf .animate) before after item ∨
      item = .endOfInput ∧ after = strip rest) :
    Completes (phraseOf .animate) before item ∨ item ∈ partItems ∧
      ∃ front word made, EndsWithMask (phraseOf .animate) before front word made := by
  obtain ⟨spelt, middle, rfl, same, read, behind⟩ :=
    exists_behind_keyword (by decide) found within looked
  have reads := result_animate same
  obtain ⟨more, last, tail, opens, completed, ended⟩ | ⟨member, front, word, made, mask⟩ :=
    animation_completes_or_endsWithMask read within behind
  · exact .inl ⟨more, last, tail, opens, by rw [List.append_assoc, reads, completed], ended⟩
  · obtain ⟨last, found, ended⟩ := mask.found
    exact .inr ⟨member, spelt ++ front, word, made, mask.member,
      by rw [mask.whole, List.append_assoc], ⟨last, by rw [reads, found], ended⟩,
      by rw [reads, mask.ended]⟩

end ActionString.Grammar
