import ActionString.Proofs.Consuming

/-!
# Loops

A loop reads round after round for as long as its rule applies, whether or not a round reads
something. Where each round reads something, a loop ends after at most as many rounds as it reads
characters, and it is what the repetitions of the grammar come to, which would also stop after a
round that reads nothing. An animation is read by a loop, too: the words that were read before a
round decide which word it looks for where no option stands.
-/

namespace ActionString.Grammar

open Rule Word

/-- Reads round after round as long as the rule for the next round applies. The rule may depend on
what was read before. -/
inductive Loops {α : Type} (round : List α → Rule α) :
    List α → List Char → List α → List Char → Prop where
  | stop {before text} (missed : (round before text).result = none) :
      Loops round before text [] text
  | step {before text value rest values last}
      (found : (round before text).result = some (value, rest))
      (more : Loops round (before ++ [value]) rest values last) :
      Loops round before text (value :: values) last

namespace Loops

variable {α : Type} {round : List α → Rule α} {before values : List α} {text last : List Char}

/-- A loop ends where the next round does not apply. -/
theorem missed (loop : Loops round before text values last) :
    (round (before ++ values) last).result = none := by
  induction loop with
  | stop missed => rwa [List.append_nil]
  | step found more ih => rwa [List.append_assoc] at ih

/-- A loop whose rounds read something has no more rounds than it reads characters. -/
theorem length_add_length_le [consuming : ∀ before, Consuming (round before)]
    (loop : Loops round before text values last) : values.length + last.length ≤ text.length := by
  induction loop with
  | stop missed => rw [List.length_nil, Nat.zero_add]
  | step found more ih =>
    have shorter := (consuming _).shorter found
    rw [List.length_cons]
    omega

/-- A loop whose rounds read something ends. -/
theorem exists_loops [consuming : ∀ before, Consuming (round before)] (before : List α)
    (text : List Char) : ∃ values last, Loops round before text values last := by
  induction length : text.length using Nat.strongRecOn generalizing before text with
  | _ size ih =>
    subst length
    cases first : (round before text).result with
    | none => exact ⟨[], text, .stop first⟩
    | some pair =>
      obtain ⟨value, rest⟩ := pair
      have shorter := (consuming before).shorter first
      obtain ⟨values, last, more⟩ := ih _ shorter (before ++ [value]) rest rfl
      exact ⟨value :: values, last, .step first more⟩

/-- A repetition reads what the loop reads. -/
theorem result_spacedMany {rule : Rule α} [Consuming rule]
    (loop : Loops (fun _ => spaced rule) before text values last) :
    (spacedMany rule text).result = some (values, last) := by
  induction loop with
  | stop missed =>
    rw [spaced_eq] at missed
    rw [spacedMany_of_none missed]
  | step found more ih =>
    rw [spaced_eq] at found
    have shorter := (Consuming.shorter found).trans_le (strip_suffix _).length_le
    rw [spacedMany_of_some found shorter, ih]
    rfl

/-- The elements of a list after the first are what the loop over separators and elements reads. -/
theorem result_followers {separator : String} {element : Rule α}
    [Consuming (follower separator element)]
    (loop : Loops (fun _ => follower separator element) before text values last) :
    (followers separator element text).result = some (values, last) := by
  induction loop with
  | stop missed => rw [followers_of_none missed]
  | step found more ih =>
    rw [followers_of_some found (Consuming.shorter found), ih]
    rfl

end Loops

/-! ### Animations -/

/-- The words of an animation in their order: an object, a texture, and numbers. -/
def animateWord : Nat → Rule (List Char)
  | 0 => objectName
  | 1 => fileName
  | _ => integer

/-- A round of reading an animation: an option, or else the word that comes after those before. -/
def animateRound (before : List (Argument ⊕ String)) : Rule (Argument ⊕ String) :=
  spaced (firstOf [Sum.inl <$> Argument.animate,
    Sum.inr <$> make id (animateWord (before.filterMap Sum.getRight?).length)])

/-- The animation that is made of options and words, unless its object or its texture is missing. -/
def animation? (parts : List (Argument ⊕ String)) : Option Phrase :=
  match parts.filterMap Sum.getRight? with
  | object :: texture :: numbers =>
    some (.animate ⟨parts.filterMap Sum.getLeft?, object, texture, numbers⟩)
  | _ => none

instance (count : Nat) : Consuming (animateWord count) := by
  unfold animateWord
  split <;> infer_instance

instance (before : List (Argument ⊕ String)) : Consuming (animateRound before) :=
  inferInstanceAs (Consuming (spaced (firstOf _)))

/-- An option is read by a round, whatever was read before. -/
theorem result_animateRound_of_option {text rest : List Char} {option : Argument}
    (found : (spaced Argument.animate text).result = some (option, rest))
    (before : List (Argument ⊕ String)) :
    (animateRound before text).result = some (.inl option, rest) := by
  rw [spaced_eq] at found
  rw [animateRound, spaced_eq, result_firstOf_cons, result_map, found]
  rfl

/-- Where no option stands, a round reads the word that comes after those before. -/
theorem result_animateRound_of_missed {text : List Char}
    (missed : (spaced Argument.animate text).result = none) (before : List (Argument ⊕ String)) :
    (animateRound before text).result =
      (spaced (animateWord (before.filterMap Sum.getRight?).length) text).result.map
        fun found => (.inr (String.ofList found.1), found.2) := by
  rw [spaced_eq] at missed
  rw [animateRound, spaced_eq, spaced_eq, result_firstOf_cons, result_firstOf_cons, result_map,
    result_map, missed, make, result_bind]
  cases (animateWord (before.filterMap Sum.getRight?).length (strip text)).result <;> rfl

/-- Behind an object and a texture, a round reads an option or a number. -/
theorem animateRound_of_two_le {before : List (Argument ⊕ String)}
    (two : 2 ≤ (before.filterMap Sum.getRight?).length) :
    animateRound before = spaced animateTail := by
  obtain ⟨more, count⟩ := Nat.exists_eq_add_of_le two
  rw [animateRound, count, Nat.add_comm]
  rfl

/-- Options as parts of an animation. -/
def optionParts (options : List Argument) : List (Argument ⊕ String) := options.map Sum.inl

/-- Options and the word behind them as parts of an animation. -/
def wordedParts (options : List Argument) (word : String) : List (Argument ⊕ String) :=
  optionParts options ++ [.inr word]

/-- Options are no words. -/
theorem getRight?_optionParts (options : List Argument) :
    (optionParts options).filterMap Sum.getRight? = [] :=
  List.filterMap_eq_nil_iff.mpr (List.forall_mem_map.mpr fun _ _ => rfl)

/-- Options are all the options among them. -/
theorem getLeft?_optionParts (options : List Argument) :
    (optionParts options).filterMap Sum.getLeft? = options := by
  rw [optionParts, List.filterMap_map]
  exact List.filterMap_some

/-- One word stands behind options. -/
theorem getRight?_wordedParts (options : List Argument) (word : String) :
    (wordedParts options word).filterMap Sum.getRight? = [word] := by
  rw [wordedParts, List.filterMap_append, getRight?_optionParts]
  rfl

/-- The options before a word are all the options among them. -/
theorem getLeft?_wordedParts (options : List Argument) (word : String) :
    (wordedParts options word).filterMap Sum.getLeft? = options := by
  rw [wordedParts, List.filterMap_append, getLeft?_optionParts]
  exact List.append_nil options

/-- Parts with an object and a texture are an animation. -/
theorem animation?_parts (options between : List Argument) (object texture : String)
    (parts : List (Argument ⊕ String)) :
    animation? (wordedParts options object ++ (wordedParts between texture ++ parts)) =
      some (.animate ⟨options ++ between ++ parts.filterMap Sum.getLeft?, object, texture,
        parts.filterMap Sum.getRight?⟩) := by
  simp only [animation?, List.filterMap_append, getRight?_wordedParts, getLeft?_wordedParts,
    List.singleton_append, List.append_assoc]

namespace Loops

variable {before values : List (Argument ⊕ String)} {options : List Argument}
variable {text middle rest last word : List Char}

/-- The options in front of something else are read by rounds of their own. -/
theorem options_append {given : List Argument}
    (front : Loops (fun _ => spaced Argument.animate) given text options middle)
    (loop : Loops animateRound (before ++ optionParts options) middle values last) :
    Loops animateRound before text (optionParts options ++ values) last := by
  induction front generalizing before with
  | stop missed =>
    rw [optionParts, List.map_nil, List.append_nil] at loop
    exact loop
  | step found more ih =>
    rw [optionParts, List.map_cons, List.append_cons] at loop
    exact .step (result_animateRound_of_option found before) (ih loop)

/-- Behind options, a round reads the word that comes after those before. -/
theorem result_animateRound
    (front : Loops (fun _ => spaced Argument.animate) [] text options middle)
    (before : List (Argument ⊕ String)) :
    (animateRound (before ++ optionParts options) middle).result =
      (spaced (animateWord (before.filterMap Sum.getRight?).length) middle).result.map
        fun found => (.inr (String.ofList found.1), found.2) := by
  rw [result_animateRound_of_missed front.missed, List.filterMap_append, getRight?_optionParts,
    List.append_nil]

/-- A loop ends behind options where the next word is missing. -/
theorem of_word_missed {count : Nat} (count_eq : (before.filterMap Sum.getRight?).length = count)
    (front : Loops (fun _ => spaced Argument.animate) [] text options middle)
    (missed : (spaced (animateWord count) middle).result = none) :
    Loops animateRound before text (optionParts options) middle := by
  have ended : Loops animateRound (before ++ optionParts options) middle [] middle := by
    apply Loops.stop
    rw [front.result_animateRound before, count_eq, missed]
    rfl
  have loop := front.options_append ended
  rwa [List.append_nil] at loop

/-- A loop goes on behind options and the next word. -/
theorem of_word_found {count : Nat} (count_eq : (before.filterMap Sum.getRight?).length = count)
    (front : Loops (fun _ => spaced Argument.animate) [] text options middle)
    (found : (spaced (animateWord count) middle).result = some (word, rest))
    (more : Loops animateRound (before ++ wordedParts options (String.ofList word)) rest
      values last) :
    Loops animateRound before text (wordedParts options (String.ofList word) ++ values) last := by
  have next : (animateRound (before ++ optionParts options) middle).result =
      some (.inr (String.ofList word), rest) := by
    rw [front.result_animateRound before, count_eq, found]
    rfl
  rw [wordedParts, ← List.append_assoc] at more
  rw [wordedParts, List.append_assoc]
  exact front.options_append (.step next more)

/-- Behind an object and a texture, a loop reads options and numbers. -/
theorem of_tail {given : List (Argument ⊕ String)}
    (tail : Loops (fun _ => spaced animateTail) given text values last)
    (two : 2 ≤ (before.filterMap Sum.getRight?).length) :
    Loops animateRound before text values last := by
  induction tail generalizing before with
  | stop missed =>
    apply Loops.stop
    rwa [animateRound_of_two_le two]
  | step found more ih =>
    apply Loops.step (by rwa [animateRound_of_two_le two])
    apply ih
    rw [List.filterMap_append, List.length_append]
    omega

end Loops

/-- Behind its word, an animation is read as the loop reads it, when that comes past a texture. -/
theorem exists_loops_animate {text rest word : List Char}
    (found : (keyword "animate" text).result = some (word, rest)) :
    ∃ parts last, Loops animateRound [] rest parts last ∧
      (animate text).result = (animation? parts).map fun phrase => (phrase, last) := by
  have readOptions (text : List Char) : ∃ options middle,
      Loops (fun _ => spaced Argument.animate) [] text options middle := Loops.exists_loops [] text
  obtain ⟨options, middle, front⟩ := readOptions rest
  cases first : (spaced objectName middle).result with
  | none =>
    refine ⟨_, _, .of_word_missed rfl front first, ?_⟩
    rw [animate, result_bind_of_some found, result_bind_of_some front.result_spacedMany,
      result_bind_of_none first, animation?, getRight?_optionParts]
    rfl
  | some pair =>
    obtain ⟨object, behind⟩ := pair
    obtain ⟨between, place, second⟩ := readOptions behind
    have one : (wordedParts options (String.ofList object)).filterMap Sum.getRight? =
        [String.ofList object] := getRight?_wordedParts options _
    cases next : (spaced fileName place).result with
    | none =>
      have ended := Loops.of_word_missed (congrArg List.length one) second next
      refine ⟨_, _, .of_word_found rfl front first ended, ?_⟩
      rw [animate, result_bind_of_some found, result_bind_of_some front.result_spacedMany,
        result_bind_of_some first, result_bind_of_some second.result_spacedMany,
        result_bind_of_none next, animation?, List.filterMap_append, one, getRight?_optionParts]
      rfl
    | some pair =>
      obtain ⟨texture, behind⟩ := pair
      obtain ⟨parts, last, tail⟩ : ∃ parts last,
          Loops (fun _ => spaced animateTail) [] behind parts last := Loops.exists_loops [] behind
      have two : 2 ≤ ((wordedParts options (String.ofList object) ++
          wordedParts between (String.ofList texture)).filterMap Sum.getRight?).length := by
        rw [List.filterMap_append, one, getRight?_wordedParts]
        exact Nat.le_refl 2
      have more := Loops.of_word_found (congrArg List.length one) second next (tail.of_tail two)
      refine ⟨_, _, .of_word_found rfl front first more, ?_⟩
      rw [animate, result_bind_of_some found, result_bind_of_some front.result_spacedMany,
        result_bind_of_some first, result_bind_of_some second.result_spacedMany,
        result_bind_of_some next, result_bind_of_some tail.result_spacedMany, animation?_parts]
      rfl

end ActionString.Grammar
