import ActionString.Proofs.AnimationOptions

/-!
# Parts of an animation behind its texture

Behind its texture an animation has options and numbers. Everything that is looked for there can
come, with one exception: behind a word of the flag, without a space, nothing but the end can, since
with a character of a file name behind it the word is no option any more.
-/

namespace ActionString.Grammar

open Rule Word

variable {front rest before after text : List Char} {item : Expected}

/-- A part of an animation behind its texture: an option or a number. -/
inductive IsPart (front rest : List Char) : Argument ⊕ String → Prop
  | option {option : Argument} (is : IsOption front rest option) : IsPart front rest (.inl option)
  | number (word : WordBefore .digit front rest) : IsPart front rest (.inr (String.ofList front))

/-- A part in front of a text is one in front of every text that begins alike, and at the end. -/
theorem IsPart.of_head {part : Argument ⊕ String} (is : IsPart front rest part)
    (same : ∀ c ∈ text.head?, c ∈ rest.head?) : IsPart front text part := by
  cases is with
  | option is => exact .option (is.of_head same)
  | number word => exact .number (word.of_head same)

/-- Behind the texture, an option or a number is read. -/
theorem result_animateTail_eq_some_iff {part : Argument ⊕ String} :
    (animateTail (front ++ rest)).result = some (part, rest) ↔ IsPart front rest part := by
  rw [animateTail, result_firstOf_cons, result_firstOf_cons, result_firstOf_nil, Option.or_none,
    result_map, result_map]
  constructor
  · intro found
    obtain option | ⟨-, number⟩ := Option.or_eq_some_iff.mp found
    · obtain ⟨⟨option, last⟩, read, same⟩ := Option.map_eq_some_iff.mp option
      cases same
      exact .option (result_option_eq_some_iff.mp read)
    · obtain ⟨⟨number, last⟩, read, same⟩ := Option.map_eq_some_iff.mp number
      cases same
      rw [make, result_bind, Option.bind_eq_some_iff] at read
      obtain ⟨⟨digits, last⟩, read, same⟩ := read
      cases same
      obtain ⟨whole, word⟩ := of_result_chars read
      obtain rfl := List.append_cancel_right whole
      exact .number word
  · intro is
    cases is with
    | option is =>
      rw [result_option_eq_some_iff.mpr is]
      rfl
    | number word =>
      have missed : (Argument.animate (front ++ rest)).result = none := by
        by_contra read
        obtain ⟨⟨option, last⟩, found⟩ := Option.ne_none_iff_exists'.mp read
        obtain ⟨start, whole⟩ := Forward.suffix found
        rw [← whole] at found
        obtain ⟨c, tail, rfl, letter⟩ := (result_option_eq_some_iff.mp found).exists_cons
        obtain ⟨d, others, rfl⟩ := List.exists_cons_of_ne_nil word.1
        obtain rfl := (List.cons.inj whole).1
        have letters : ∀ c ∈ ['t', 'm', 'n'], ¬CharClass.digit.accepts c = true := by decide
        exact letters c letter (word.2.1 c (.head _))
      rw [missed, make, integer, result_bind_of_some (result_chars word.1 word.2.1 word.2.2)]
      rfl

/-- A word of the flag with a character of a file name behind it is no part of an animation. -/
theorem result_animateTail_of_glued {word : String} (member : word ∈ maskWords) {c : Char}
    (glued : CharClass.fileName.accepts c = true) (more : List Char) :
    (animateTail (word.toList ++ c :: more)).result = none := by
  by_contra read
  obtain ⟨⟨part, last⟩, found⟩ := Option.ne_none_iff_exists'.mp read
  obtain ⟨start, whole⟩ := Forward.suffix found
  rw [← whole] at found
  obtain ⟨d, others, spelling, letter⟩ := exists_cons_of_mem_maskWords member
  have letters : ∀ d ∈ ['m', 'n'], d ≠ 't' ∧ CharClass.digit.accepts d = false := by decide
  obtain ⟨key, digit⟩ := letters d letter
  cases result_animateTail_eq_some_iff.mp found with
  | number made =>
    obtain ⟨e, front, rfl⟩ := List.exists_cons_of_ne_nil made.1
    rw [spelling] at whole
    obtain rfl := (List.cons.inj whole).1
    rw [made.2.1 e (.head _)] at digit
    cases digit
  | option is =>
    cases is with
    | tag spelt made =>
      rw [spelling, spelt] at whole
      exact key (List.cons.inj whole).1.symm
    | @mask other inside spelt made =>
      -- Neither word of the flag begins the other.
      have apart : ∀ first ∈ maskWords, ∀ second ∈ maskWords, first.toList <+: second.toList →
          first = second := by decide
      have same : other = word := by
        obtain ⟨inner, cut, -⟩ | ⟨inner, cut, -⟩ := List.append_eq_append_iff.mp (spelt ▸ whole)
        · exact apart other inside word member ⟨inner, cut.symm⟩
        · exact (apart word member other inside ⟨inner, cut.symm⟩).symm
      rw [spelt, same] at whole
      rw [List.append_cancel_left whole] at made
      rw [made.2.2 c rfl] at glued
      cases glued

/-- What is looked for at the beginning of a part. -/
def partItems : List Expected := .charClass CharClass.digit.description :: optionItems

/-- A part misses what an option misses, or digits at its beginning. -/
theorem Misses.part (misses : Misses animateTail before after item) :
    before = [] ∧ item ∈ partItems ∨ before = "tag".toList ∧ item = .literal "=" ∨
      before = "tag=".toList ∧ item = .charClass CharClass.digit.description := by
  obtain option | ⟨-, others⟩ := misses.cons
  · exact (Misses.option option.map).imp_left (And.imp_right (.tail _))
  · obtain number | ⟨-, none⟩ := others.cons
    · obtain ⟨rfl, rfl⟩ := number.map.make.chars
      exact .inl ⟨rfl, .head _⟩
    · exact absurd none Misses.not_nil

/-- A part begins with the letter of an option or with a digit, but not with a space. -/
theorem IsPart.exists_cons {part : Argument ⊕ String} (is : IsPart front rest part) :
    ∃ c tail, front = c :: tail ∧ isSpace c = false ∧ c ≠ '=' := by
  cases is with
  | option is =>
    obtain ⟨c, tail, rfl, letter⟩ := is.exists_cons
    have letters : ∀ c ∈ ['t', 'm', 'n'], isSpace c = false ∧ c ≠ '=' := by decide
    exact ⟨c, tail, rfl, letters c letter⟩
  | number word =>
    obtain ⟨c, tail, rfl⟩ := List.exists_cons_of_ne_nil word.1
    have digit := word.2.1 c (.head _)
    refine ⟨c, tail, rfl, Bool.eq_false_iff.mpr fun space => ?_, ?_⟩
    · have refused : CharClass.digit.accepts c = false := refused_of_isSpace (by decide) space
      rw [digit] at refused
      cases refused
    · rintro rfl
      cases digit

/-- A part is read, and the parts behind it. -/
theorem IsPart.cons {part : Argument ⊕ String} {parts : List (Argument ⊕ String)} {last : List Char}
    (is : IsPart front rest part) (more : (spacedMany animateTail rest).result = some (parts, last)) :
    (spacedMany animateTail (front ++ rest)).result = some (part :: parts, last) := by
  have found := result_animateTail_eq_some_iff.mpr is
  refine result_spacedMany_of_some ?_ more
  obtain ⟨c, tail, rfl, solid, -⟩ := is.exists_cons
  rw [show strip (c :: tail ++ rest) = c :: tail ++ rest from strip_cons_of_not solid _, found]

/-- A text is parts and a word of the flag behind them. -/
structure MaskLast (before front : List Char) (word : String) (parts : List (Argument ⊕ String)) :
    Prop where
  member : word ∈ maskWords
  whole : before = front ++ word.toList
  found : ∃ rest, (spacedMany animateTail front).result = some (parts, rest) ∧ blank rest = true
  ended : (spacedMany animateTail before).result = some (parts ++ [.inl (.status .mask word)], [])

/-- What is missed completes the text before it, or it is missed behind a word of the flag. -/
structure GoesOnOrMask (before : List Char) (item : Expected) : Prop where
  completes : Completes (spacedMany animateTail) before item ∨
    item ∈ partItems ∧ ∃ front word parts, MaskLast before front word parts
  begins : before = [] → item = .endOfInput ∨ item ∈ partItems
  other : before.head? ≠ some '='

/-- A text that is read whole as a part goes on with what is missed at the end of it. -/
theorem completes_of_part {more : List Char} {part : Argument ⊕ String} (opens : item.Opens more)
    (is : IsPart (before ++ more) [] part) : Completes (spacedMany animateTail) before item := by
  have read := is.cons (result_spacedMany_nil animateTail)
  rw [List.append_nil] at read
  exact ⟨more, [part], [], opens, read, rfl⟩

/-- A word of a class is one at the end. -/
theorem wordBefore_nil (nonempty : front ≠ []) (made : ∀ c ∈ front, kind.accepts c = true) :
    WordBefore kind front [] :=
  ⟨nonempty, made, by simp⟩

/-- Some text with an item that begins a part is a part, and what begins with a digit is a digit. -/
theorem exists_part (member : item ∈ partItems) : ∃ more part, item.Opens more ∧
    IsPart more [] part ∧ ((∀ c ∈ more.head?, CharClass.digit.accepts c = false) ∨ more = ['0']) := by
  have zero : WordBefore .digit ['0'] [] := wordBefore_nil (by decide) (by decide)
  have refused {more : List Char} {option : Argument} (is : IsOption more [] option) :
      ∀ c ∈ more.head?, CharClass.digit.accepts c = false := by
    obtain ⟨c, tail, rfl, letter⟩ := is.exists_cons
    have letters : ∀ c ∈ ['t', 'm', 'n'], CharClass.digit.accepts c = false := by decide
    rintro d ⟨⟩
    exact letters c letter
  simp only [partItems, optionItems, List.mem_cons, List.mem_map] at member
  obtain rfl | rfl | ⟨word, member, rfl⟩ := member
  · exact ⟨['0'], _, ⟨.digit, rfl, '0', rfl, by decide⟩, .number zero, .inr rfl⟩
  · have is : IsOption ("tag=".toList ++ ['0']) [] _ := .tag rfl zero
    exact ⟨_, _, ⟨['=', '0'], rfl⟩, .option is, .inl (refused is)⟩
  · have made : ∀ word ∈ maskWords, word.toList ≠ [] ∧
        ∀ c ∈ word.toList, CharClass.fileName.accepts c = true := by decide
    obtain ⟨nonempty, accepted⟩ := made word member
    have is := IsOption.mask member rfl (wordBefore_nil nonempty accepted)
    exact ⟨_, _, List.prefix_refl _, .option is, .inl (refused is)⟩

/-- A part ends with digits, behind which more digits are part of it and anything else comes behind
it, or it is a word of the flag. -/
theorem IsPart.digits_or_mask {part : Argument ⊕ String} (is : IsPart front rest part) :
    (∃ lead digits, front = lead ++ digits ∧ WordBefore .digit digits rest ∧
      (∀ ⦃text⦄, WordBefore .digit digits text → IsPart front text part) ∧
      ∀ ⦃more⦄, WordBefore .digit more [] → ∃ part, IsPart (lead ++ more) [] part) ∨
    ∃ word ∈ maskWords, front = word.toList ∧ part = .inl (.status .mask word) := by
  cases is with
  | option is =>
    cases is with
    | tag spelt made =>
      exact .inl ⟨"tag=".toList, _, spelt, made, fun _ made => .option (.tag spelt made),
        fun _ made => ⟨_, .option (.tag rfl made)⟩⟩
    | mask member spelt made => exact .inr ⟨_, member, spelt, rfl⟩
  | number word =>
    exact .inl ⟨[], front, rfl, word, fun _ made => .number made, fun _ made => ⟨_, .number made⟩⟩

/-- Where parts with a word of the flag behind them are read to the end, they are also read in front
of that word with a character of a file name behind it, and the word is not. -/
theorem exists_parts_of_glued {word : String} (member : word ∈ maskWords)
    {parts others : List (Argument ⊕ String)}
    (found : (spacedMany animateTail text).result = some (parts, rest)) (blanks : blank rest = true)
    (ended : (spacedMany animateTail (text ++ word.toList)).result = some (others, []))
    {c : Char} (glued : CharClass.fileName.accepts c = true) (more : List Char) :
    ∃ last, (spacedMany animateTail (text ++ word.toList ++ c :: more)).result =
      some (parts, last) ∧ strip last = word.toList ++ c :: more := by
  obtain ⟨first, tail, spelling, letter⟩ := exists_cons_of_mem_maskWords member
  have letters : ∀ d ∈ ['m', 'n'], isSpace d = false ∧ CharClass.digit.accepts d = false ∧
      CharClass.fileName.accepts d = true := by decide
  obtain ⟨solid, digit, name⟩ := letters first letter
  have stripped : strip (word.toList ++ c :: more) = word.toList ++ c :: more := by
    rw [spelling]
    exact strip_cons_of_not solid _
  have missed := result_animateTail_of_glued member glued more
  rw [List.append_assoc]
  induction text using repeat_induction fun text => animateTail (strip text)
    generalizing parts others with
  | stop text none =>
    obtain ⟨rfl, rfl⟩ : [] = parts ∧ text = rest := by
      simpa [spacedMany_of_none none] using found
    have left : strip (text ++ (word.toList ++ c :: more)) = word.toList ++ c :: more := by
      rw [strip_append_of_blank blanks, stripped]
    exact ⟨_, by rw [spacedMany_of_none (by rw [left, missed])], left⟩
  | idle text value left read same =>
    exact absurd ((Consuming.shorter read).trans_le (strip_suffix text).length_le) same
  | step text value left read shorter ih =>
    rw [spacedMany_of_some read shorter, Option.map_eq_some_iff] at found
    obtain ⟨⟨values, last⟩, found, same⟩ := found
    cases same
    obtain ⟨front, whole⟩ := Forward.suffix read
    have is : IsPart front left value := result_animateTail_eq_some_iff.mp (whole ▸ read)
    have begins (behind : List Char) : strip (text ++ behind) = front ++ (left ++ behind) := by
      obtain ⟨d, tail, rfl, -⟩ := is.exists_cons
      rw [strip_append_of_not_blank, ← whole, List.append_assoc]
      rw [Bool.eq_false_iff]
      intro blanks
      rw [strip_eq_nil_iff.mpr blanks] at whole
      cases whole
    have next {behind : List Char} (is : IsPart front (left ++ behind) value) :
        (animateTail (strip (text ++ behind))).result = some (value, left ++ behind) := by
      rw [begins, result_animateTail_eq_some_iff.mpr is]
    cases left with
    | nil =>
      obtain ⟨rfl, rfl⟩ : [] = values ∧ [] = rest := by
        simpa [result_spacedMany_nil] using found
      obtain ⟨lead, digits, -, made, again, -⟩ | ⟨flag, inside, rfl, -⟩ := is.digits_or_mask
      · have onwards : WordBefore .digit digits (word.toList ++ c :: more) :=
          ⟨made.1, made.2.1, fun d head => by
            rw [spelling] at head
            cases head
            exact digit⟩
        exact ⟨_, result_spacedMany_of_some (next (again onwards))
          (by rw [List.nil_append, spacedMany_of_none (by rw [stripped, missed])]), stripped⟩
      · -- The word would be glued to another word of the flag, and neither be read.
        have none : (animateTail (strip (text ++ word.toList))).result = none := by
          rw [begins, spelling]
          exact result_animateTail_of_glued inside name tail
        rw [spacedMany_of_none none, spelling] at ended
        simp at ended
    | cons d others =>
      have onwards (behind : List Char) : IsPart front (d :: others ++ behind) value :=
        is.of_head fun _ => id
      obtain ⟨values, final, read⟩ := exists_spacedMany animateTail (d :: others ++ word.toList)
      rw [result_spacedMany_of_some (next (onwards _)) read] at ended
      cases ended
      obtain ⟨last, read, stripped⟩ := ih found read
      exact ⟨last, result_spacedMany_of_some (next (onwards _)) read, stripped⟩

/-- What begins a part completes the text behind a part, unless that is a word of the flag. -/
theorem IsPart.completes_or_mask {part : Argument ⊕ String} (is : IsPart front rest part)
    (begins : item = .endOfInput ∨ item ∈ partItems) :
    Completes (spacedMany animateTail) front item ∨
      item ∈ partItems ∧ ∃ start word parts, MaskLast front start word parts := by
  have ended : IsPart front [] part := is.of_head (by simp)
  have empty := result_spacedMany_nil animateTail
  have read := ended.cons empty
  rw [List.append_nil] at read
  obtain rfl | member := begins
  · exact .inl (completes_endOfInput_iff.mpr ⟨_, _, read, rfl⟩)
  obtain ⟨lead, digits, rfl, made, onwards, again⟩ | ⟨word, inside, rfl, rfl⟩ :=
    is.digits_or_mask
  · left
    obtain ⟨more, next, opens, isNext, refused | rfl⟩ := exists_part member
    · have found := (onwards ⟨made.1, made.2.1, refused⟩).cons
        ((List.append_nil more) ▸ isNext.cons empty)
      exact ⟨more, _, [], opens, found, rfl⟩
    · have longer : WordBefore .digit (digits ++ ['0']) [] :=
        wordBefore_nil (by simp) (List.forall_mem_append.mpr ⟨made.2.1, by decide⟩)
      obtain ⟨value, is⟩ := again longer
      rw [← List.append_assoc] at is
      exact completes_of_part opens is
  · exact .inr ⟨member, [], word, [], inside, rfl, ⟨[], empty, rfl⟩, read⟩

/-- Spaces may come in front of the parts. -/
theorem MaskLast.gap {gap : List Char} {word : String} {parts : List (Argument ⊕ String)}
    (blanks : blank gap = true) (mask : MaskLast before front word parts) :
    MaskLast (gap ++ before) (gap ++ front) word parts := by
  obtain ⟨member, rfl, ⟨rest, found, left⟩, ended⟩ := mask
  refine ⟨member, (List.append_assoc _ _ _).symm, ?_, ?_⟩
  · obtain ⟨last, read, rfl | ⟨-, rfl⟩⟩ := exists_spacedMany_gap blanks found
    · exact ⟨last, read, left⟩
    · refine ⟨_, read, ?_⟩
      rw [blank, List.all_append, Bool.and_eq_true]
      exact ⟨blanks, left⟩
  · obtain ⟨last, read, rfl | ⟨none, -⟩⟩ := exists_spacedMany_gap blanks ended
    · exact read
    · simp at none

/-- Another part may come in front of the parts. -/
theorem MaskLast.cons {start : List Char} {word : String} {part : Argument ⊕ String}
    {parts : List (Argument ⊕ String)} (mask : MaskLast before start word parts)
    (is : ∀ text : List Char, (∀ c ∈ text.head?, c ∈ before.head?) → IsPart front text part) :
    MaskLast (front ++ before) (front ++ start) word (part :: parts) := by
  obtain ⟨member, rfl, ⟨rest, found, left⟩, ended⟩ := mask
  refine ⟨member, (List.append_assoc _ _ _).symm, ⟨rest, (is start fun c head => ?_).cons found, left⟩,
    (is _ fun _ => id).cons ended⟩
  rw [List.head?_append, head]
  rfl

/-- Whatever is missed behind the texture goes on, or is missed behind a word of the flag. -/
theorem goesOnOrMask_of_awaits (awaits : Awaits animateTail before after item) :
    GoesOnOrMask before item := by
  have zero : WordBefore .digit ['0'] [] := wordBefore_nil (by decide) (by decide)
  refine awaits_induction (motive := fun before _ item =>
    GoesOnOrMask before item) ?_ ?_ ?_ ?_ awaits
  · exact fun _ => ⟨.inl ⟨[], [], [], rfl, result_spacedMany_nil _, rfl⟩, fun _ => .inl rfl, by simp⟩
  · intro before after item misses
    obtain ⟨rfl, member⟩ | ⟨rfl, rfl⟩ | ⟨rfl, rfl⟩ := misses.part
    · obtain ⟨more, part, opens, is, -⟩ := exists_part member
      exact ⟨.inl (completes_of_part opens is), fun _ => .inr member, by simp⟩
    · have is : IsPart ("tag".toList ++ ['=', '0']) [] _ := .option (.tag rfl zero)
      exact ⟨.inl (completes_of_part ⟨['0'], rfl⟩ is), fun none => by simp at none, by simp⟩
    · have is : IsPart ("tag=".toList ++ ['0']) [] _ := .option (.tag rfl zero)
      exact ⟨.inl (completes_of_part ⟨.digit, rfl, '0', rfl, by decide⟩ is), fun none => by simp at none, by simp⟩
  · intro gap before after item blanks ih
    refine ⟨ih.completes.imp (Completes.gap blanks) fun ⟨member, front, word, parts, mask⟩ =>
      ⟨member, gap ++ front, word, parts, mask.gap blanks⟩,
      fun none => ih.begins (List.append_eq_nil_iff.mp none).2, ?_⟩
    · cases gap with
      | nil => exact ih.other
      | cons c gap =>
        intro same
        cases same
        cases blanks
  · intro front part before after item found _ ih
    have is := result_animateTail_eq_some_iff.mp found
    obtain ⟨c, tail, whole, -, differs⟩ := is.exists_cons
    refine ⟨?_, fun none => ?_, ?_⟩
    · cases before with
      | nil =>
        rw [List.append_nil]
        exact is.completes_or_mask (ih.begins rfl)
      | cons d others =>
        have onwards {more : List Char} (same : ∀ c ∈ more.head?, c = d) : IsPart front more part :=
          is.of_head fun c member => same c member ▸ rfl
        obtain ⟨more, parts, rest, opens, found, ended⟩ | ⟨member, start, word, parts, mask⟩ :=
          ih.completes
        · have next := (onwards (by simp)).cons found
          exact .inl ⟨more, _, rest, opens, by rw [List.append_assoc, next], ended⟩
        · exact .inr ⟨member, front ++ start, word, part :: parts, mask.cons fun text same =>
            onwards fun c member => (Option.some.inj (same c member)).symm⟩
    · rw [whole] at none
      cases none
    · rw [whole]
      simpa using differs

end ActionString.Grammar
