import ActionString.Proofs.Headed

/-!
# Words of a class with the name of an object among them

A colour is a word of one class of characters, and so is a sequence. Among such words the name of an
object may come as a parameter, whose key is a word of the class as well: only the equals sign
behind it tells them apart. No other word goes on with an equals sign, so where one is refused, no
parameter is cut short.
-/

namespace ActionString.Grammar

open Rule Word

variable {kind : CharClass} {rules : List (Rule Argument)} {front rest before after : List Char}
  {item : Expected}

/-- Words of a class come up to a character that is not of it. -/
def WordBefore (kind : CharClass) (front rest : List Char) : Prop :=
  front ≠ [] ∧ (∀ c ∈ front, kind.accepts c = true) ∧ ∀ c ∈ rest.head?, kind.accepts c = false

/-- There is one way to cut a word of a class off a text. -/
theorem WordBefore.unique {front' rest' : List Char} (first : WordBefore kind front rest)
    (second : WordBefore kind front' rest') (same : front ++ rest = front' ++ rest') :
    rest' = rest := by
  have left := (span_append first.2.1 first.2.2).2
  rw [same, (span_append second.2.1 second.2.2).2] at left
  exact left

/-- A word of a class comes before every text that begins alike, and before none. -/
theorem WordBefore.of_head {more : List Char} (word : WordBefore kind front rest)
    (same : ∀ c ∈ more.head?, c ∈ rest.head?) : WordBefore kind front more :=
  ⟨word.1, word.2.1, fun c member => word.2.2 c (same c member)⟩

/-- No spaces come in front of a word of a class without them. -/
theorem WordBefore.strip_append (word : WordBefore kind front rest)
    (space : ∀ ⦃c⦄, isSpace c = true → kind.accepts c = false) (text : List Char) :
    strip (front ++ text) = front ++ text := by
  obtain ⟨c, others, rfl⟩ := List.exists_cons_of_ne_nil word.1
  refine strip_cons_of_not (Bool.eq_false_iff.mpr fun isSpace => ?_) _
  have refused := space isSpace
  rw [word.2.1 c (.head _)] at refused
  cases refused

/-- A word of a class that goes on with no equals sign is no key in front of one. -/
theorem WordBefore.ne_key (word : WordBefore kind front rest) (other : rest.head? ≠ some '=')
    (equals : kind.accepts '=' = false) {key : List Char} (made : ∀ c ∈ key, kind.accepts c = true)
    (tail : List Char) : front ++ rest ≠ key ++ '=' :: tail := by
  intro cut
  obtain ⟨inner, whole, left⟩ | ⟨inner, whole, left⟩ := List.append_eq_append_iff.mp cut
  · cases inner with
    | nil =>
      rw [List.nil_append] at left
      exact other (by rw [left]; rfl)
    | cons c inner =>
      have accepted := made c (by rw [whole]; exact List.mem_append_right _ (.head _))
      rw [word.2.2 c (by rw [left]; rfl)] at accepted
      cases accepted
  · cases inner with
    | nil =>
      rw [List.nil_append] at left
      exact other (by rw [← left]; rfl)
    | cons c inner =>
      obtain rfl : '=' = c := (List.cons.inj left).1
      have accepted := word.2.1 '=' (by rw [whole]; exact List.mem_append_right _ (.head _))
      rw [equals] at accepted
      cases accepted

/-- Rules for the words of a class: they read every word of the class and nothing else, and what
they miss begins such a word. -/
structure ForWords (kind : CharClass) (rules : List (Rule Argument)) : Prop where
  alphanumeric ⦃c : Char⦄ : Text.isAlphanumeric c = true → kind.accepts c = true
  equals : kind.accepts '=' = false
  space ⦃c : Char⦄ : isSpace c = true → kind.accepts c = false
  reads ⦃front rest : List Char⦄ ⦃value : Argument⦄ :
    (firstOf rules (front ++ rest)).result = some (value, rest) → WordBefore kind front rest
  found ⦃front rest : List Char⦄ : WordBefore kind front rest →
    ∃ value, (firstOf rules (front ++ rest)).result = some (value, rest)
  misses ⦃before after : List Char⦄ ⦃item : Expected⦄ : Misses (firstOf rules) before after item →
    before = [] ∧ ∃ more, (∀ c ∈ more, Text.isAlphanumeric c = true) ∧ item.Opens more

/-- The target as a parameter is its key with an equals sign and a name. -/
theorem result_name (word : WordBefore .objectName front rest) :
    (Argument.name ("name=".toList ++ front ++ rest)).result =
      some (.target (String.ofList front), rest) := by
  have key : (literal "name" ("name=".toList ++ front ++ rest)).result =
      some ("name".toList, '=' :: (front ++ rest)) := result_literal "name" _
  have equals : (literal "=" ('=' :: (front ++ rest))).result = some (['='], front ++ rest) :=
    result_literal_self rfl _
  rw [Argument.name, result_bind_of_some key, result_bind_of_some equals, make, objectName,
    result_bind_of_some (result_chars word.1 word.2.1 word.2.2)]
  rfl

/-- The target as a parameter that is read is its key with an equals sign and a name. -/
theorem of_result_name {value : Argument} {text : List Char}
    (found : (Argument.name text).result = some (value, rest)) :
    ∃ front, text = "name=".toList ++ front ++ rest ∧ WordBefore .objectName front rest := by
  rw [Argument.name, result_bind, Option.bind_eq_some_iff] at found
  obtain ⟨⟨key, left⟩, first, found⟩ := found
  rw [result_bind, Option.bind_eq_some_iff] at found
  obtain ⟨⟨equals, behind⟩, second, found⟩ := found
  rw [make, result_bind, Option.bind_eq_some_iff] at found
  obtain ⟨⟨front, tail⟩, third, same⟩ := found
  obtain ⟨-, rfl⟩ : _ ∧ rest = tail := by simpa [eq_comm] using same
  obtain ⟨-, rfl⟩ := eq_append_of_result_literal first
  obtain ⟨-, rfl⟩ := eq_append_of_result_literal second
  obtain ⟨rfl, word⟩ := of_result_chars third
  exact ⟨front, rfl, word⟩

namespace ForWords

/-- A word of the class that goes on with no equals sign is no parameter. -/
theorem result_name_eq_none (forWords : ForWords kind rules) (word : WordBefore kind front rest)
    (other : rest.head? ≠ some '=') : (Argument.name (front ++ rest)).result = none := by
  rw [← Option.not_isSome_iff_eq_none]
  intro some
  obtain ⟨⟨value, tail⟩, found⟩ := Option.isSome_iff_exists.mp some
  obtain ⟨name, same, -⟩ := of_result_name found
  have letters : ∀ c ∈ "name".toList, Text.isAlphanumeric c = true := by decide
  exact word.ne_key other forWords.equals (fun c member => forWords.alphanumeric (letters c member))
    (name ++ tail) same

/-- A word of the class that goes on with no equals sign is read. -/
theorem result_word (forWords : ForWords kind rules) (word : WordBefore kind front rest)
    (other : rest.head? ≠ some '=') :
    ∃ value, (firstOf (Argument.name :: rules) (front ++ rest)).result = some (value, rest) := by
  obtain ⟨value, found⟩ := forWords.found word
  exact ⟨value, by
    rw [result_firstOf_cons, forWords.result_name_eq_none word other, Option.none_or, found]⟩

/-- What is read is a word of the class, or the target as a parameter. -/
theorem word_or_name (forWords : ForWords kind rules) {value : Argument}
    (found : (firstOf (Argument.name :: rules) (front ++ rest)).result = some (value, rest)) :
    WordBefore kind front rest ∨
      ∃ name, front = "name=".toList ++ name ∧ WordBefore .objectName name rest := by
  rw [result_firstOf_cons, Option.or_eq_some_iff] at found
  obtain parameter | ⟨-, word⟩ := found
  · obtain ⟨name, same, word⟩ := of_result_name parameter
    exact .inr ⟨name, List.append_cancel_right same, word⟩
  · exact .inl (forWords.reads word)

variable [Built (firstOf rules)]

/-- A text that is read does not begin with a space. -/
theorem strip_eq (forWords : ForWords kind rules) {value : Argument} {text : List Char}
    (found : (firstOf (Argument.name :: rules) text).result = some (value, rest)) :
    strip text = text := by
  obtain ⟨front, rfl⟩ := Forward.suffix found
  obtain word | ⟨name, rfl, -⟩ := forWords.word_or_name found
  · exact word.strip_append forWords.space rest
  · rfl

section Repeated

variable [Consuming (firstOf rules)]

/-- Words and parameters are read one after the other. -/
theorem spacedMany_cons (forWords : ForWords kind rules) {text last : List Char} {value : Argument}
    {values : List Argument}
    (found : (firstOf (Argument.name :: rules) text).result = some (value, rest))
    (more : (spacedMany (firstOf (Argument.name :: rules)) rest).result = some (values, last)) :
    (spacedMany (firstOf (Argument.name :: rules)) text).result = some (value :: values, last) :=
  result_spacedMany_of_some (by rw [forWords.strip_eq found, found]) more

/-- A word at the end is read. -/
theorem exists_last_word (forWords : ForWords kind rules) {text : List Char}
    (made : ∀ c ∈ text, kind.accepts c = true) :
    ∃ values, (spacedMany (firstOf (Argument.name :: rules)) text).result = some (values, []) := by
  have empty := result_spacedMany_nil (firstOf (Argument.name :: rules))
  by_cases none : text = []
  · exact ⟨[], by rw [none, empty]⟩
  · have word : WordBefore kind text [] := ⟨none, made, by simp⟩
    obtain ⟨value, found⟩ := forWords.result_word word (by simp)
    rw [List.append_nil] at found
    exact ⟨_, forWords.spacedMany_cons found empty⟩

/-- A parameter at the end is read. -/
theorem exists_last_name (forWords : ForWords kind rules) {name : List Char} (nonempty : name ≠ [])
    (made : ∀ c ∈ name, CharClass.objectName.accepts c = true) : ∃ values,
    (spacedMany (firstOf (Argument.name :: rules)) ("name=".toList ++ name)).result =
      some (values, []) := by
  have word : WordBefore .objectName name [] := ⟨nonempty, made, by simp⟩
  have found := result_name word
  rw [List.append_nil] at found
  exact ⟨_, forWords.spacedMany_cons (by rw [result_firstOf_cons, found]; rfl)
    (result_spacedMany_nil _)⟩

/-- What is missed completes the text before it. At the beginning of a word it can also be part of
a word before, and later the text before it begins with no equals sign. -/
structure GoesOn (rules : List (Rule Argument)) (before : List Char) (item : Expected) : Prop where
  completes : Completes (spacedMany (firstOf (Argument.name :: rules))) before item
  begins : before = [] → ∃ more, (∀ c ∈ more, Text.isAlphanumeric c = true) ∧ item.Opens more
  other : before.head? ≠ some '='

/-- What begins a word goes on. -/
theorem GoesOn.of_begins (forWords : ForWords kind rules) {more : List Char}
    (alphanumeric : ∀ c ∈ more, Text.isAlphanumeric c = true) (opens : item.Opens more) :
    GoesOn rules [] item where
  completes := by
    obtain ⟨values, found⟩ := forWords.exists_last_word fun c member =>
      forWords.alphanumeric (alphanumeric c member)
    exact ⟨more, values, [], opens, found, rfl⟩
  begins _ := ⟨more, alphanumeric, opens⟩
  other := by simp

/-- What is missed by a parameter or a word goes on. -/
theorem goesOn_of_misses (forWords : ForWords kind rules)
    (misses : Misses (firstOf (Argument.name :: rules)) before after item) :
    GoesOn rules before item := by
  obtain parameter | ⟨-, word⟩ := misses.cons
  · obtain key | ⟨_, first, middle, rfl, read, later⟩ := parameter.bind
    · obtain ⟨rfl, rfl⟩ := key.literal
      exact .of_begins forWords (by decide) (List.prefix_refl "name".toList)
    · obtain ⟨values, found⟩ := forWords.exists_last_name (List.cons_ne_nil 'a' []) (by decide)
      obtain ⟨-, same⟩ := eq_append_of_result_literal read
      rw [← List.append_assoc] at same
      rw [List.append_cancel_right same]
      refine ⟨?_, fun none => by simp at none, by simp⟩
      obtain equals | ⟨_, second, behind, rfl, read, value⟩ := later.bind
      · obtain ⟨rfl, rfl⟩ := equals.literal
        exact ⟨['=', 'a'], values, [], ⟨['a'], rfl⟩, found, rfl⟩
      · obtain ⟨-, same⟩ := eq_append_of_result_literal read
        rw [← List.append_assoc] at same
        obtain ⟨rfl, rfl⟩ := value.make.chars
        rw [List.append_cancel_right same]
        exact ⟨['a'], values, [], ⟨.objectName, rfl, 'a', rfl, by decide⟩, found, rfl⟩
  · obtain ⟨rfl, more, alphanumeric, opens⟩ := forWords.misses word
    exact .of_begins forWords alphanumeric opens

/-- What goes on behind the beginning of a word goes on behind a word in front of it. -/
theorem GoesOn.append (forWords : ForWords kind rules) {text : List Char} {value : Argument}
    (found : (firstOf (Argument.name :: rules) (text ++ (before ++ after))).result =
      some (value, before ++ after)) (goesOn : GoesOn rules before item) :
    GoesOn rules (text ++ before) item := by
  have part := forWords.word_or_name found
  have front : ∃ c others, text = c :: others ∧ c ≠ '=' := by
    obtain ⟨nonempty, made, -⟩ | ⟨name, rfl, -⟩ := part
    · obtain ⟨c, others, rfl⟩ := List.exists_cons_of_ne_nil nonempty
      refine ⟨c, others, rfl, ?_⟩
      rintro rfl
      have refused := made '=' (.head _)
      rw [forWords.equals] at refused
      cases refused
    · exact ⟨'n', "ame=".toList ++ name, rfl, by decide⟩
  refine ⟨?_, fun none => ?_, ?_⟩
  · cases before with
    | nil =>
      obtain ⟨more, alphanumeric, opens⟩ := goesOn.begins rfl
      rw [List.append_nil]
      obtain ⟨-, made, -⟩ | ⟨name, rfl, nonempty, made, -⟩ := part
      · obtain ⟨values, found⟩ := forWords.exists_last_word
          (List.forall_mem_append.mpr ⟨made, fun c member =>
            forWords.alphanumeric (alphanumeric c member)⟩)
        exact ⟨more, values, [], opens, found, rfl⟩
      · obtain ⟨values, found⟩ := forWords.exists_last_name
          (List.append_ne_nil_of_left_ne_nil nonempty more) (List.forall_mem_append.mpr ⟨made, fun c member => by
            simp [CharClass.accepts, alphanumeric c member]⟩)
        rw [← List.append_assoc] at found
        exact ⟨more, values, [], opens, found, rfl⟩
    | cons c others =>
      obtain ⟨more, values, rest, opens, read, ended⟩ := goesOn.completes
      have next : ∃ value, (firstOf (Argument.name :: rules) (text ++ (c :: others ++ more))).result =
          some (value, c :: others ++ more) := by
        obtain word | ⟨name, rfl, word⟩ := part
        · exact forWords.result_word ⟨word.1, word.2.1, word.2.2⟩ goesOn.other
        · have again : WordBefore .objectName name (c :: others ++ more) :=
            ⟨word.1, word.2.1, word.2.2⟩
          rw [result_firstOf_cons, result_name again]
          exact ⟨_, rfl⟩
      obtain ⟨value, found⟩ := next
      refine ⟨more, value :: values, rest, opens, ?_, ended⟩
      rw [List.append_assoc]
      exact forWords.spacedMany_cons found read
  · obtain ⟨c, others, rfl, -⟩ := front
    cases none
  · obtain ⟨c, others, rfl, differs⟩ := front
    simpa using differs

/-- Whatever is missed among words of a class and names completes the text before it. -/
theorem completes (forWords : ForWords kind rules)
    (awaits : Awaits (firstOf (Argument.name :: rules)) before after item) :
    Completes (spacedMany (firstOf (Argument.name :: rules))) before item := by
  refine GoesOn.completes (awaits_induction
    (motive := fun before _ item => GoesOn rules before item) ?_ ?_ ?_ ?_ awaits)
  · exact fun _ => .of_begins forWords (List.forall_mem_nil _) rfl
  · exact fun _ _ _ => forWords.goesOn_of_misses
  · intro gap before after item blanks goesOn
    refine ⟨goesOn.completes.gap blanks, fun none => goesOn.begins (List.append_eq_nil_iff.mp none).2,
      ?_⟩
    cases gap with
    | nil => exact goesOn.other
    | cons c gap =>
      intro same
      cases same
      cases blanks
  · exact fun _ _ _ _ _ found _ goesOn => goesOn.append forWords found

end Repeated

end ForWords

/-! ### The kinds of commands -/

/-- Colour tokens are words of their class. -/
theorem forWords_color : ForWords .colorCode [make .color colorCode] where
  alphanumeric _ alphanumeric := alphanumeric
  equals := by decide
  space _ space := refused_of_isSpace (by decide) space
  reads front rest value found := by
    rw [result_firstOf_cons, result_firstOf_nil, Option.or_none, make, result_bind,
      Option.bind_eq_some_iff] at found
    obtain ⟨⟨word, left⟩, read, same⟩ := found
    cases same
    obtain ⟨whole, word⟩ := of_result_chars read
    rwa [← List.append_cancel_right whole] at word
  found front rest word := by
    have read := result_chars word.1 word.2.1 word.2.2
    rw [result_firstOf_cons, make, colorCode, result_bind_of_some read]
    exact ⟨_, rfl⟩
  misses before after item misses := by
    obtain word | ⟨-, none⟩ := misses.cons
    · obtain ⟨rfl, rfl⟩ := word.make.chars
      exact ⟨rfl, ['a'], by decide, .colorCode, rfl, 'a', rfl, by decide⟩
    · exact absurd none Misses.not_nil

/-- The command that colours an object completes texts. -/
theorem resumes_color : Resumes (phraseOf .color) :=
  .keyword (by decide) fun _ => .map (.spacedMany fun _ _ _ => forWords_color.completes)

/-- The word of a flag that is read is one of its two words. -/
theorem of_result_status {flag : Flag} {off : String} (paired : flag.offWord? = some off)
    {text : List Char} {value : Argument}
    (found : (Argument.status flag text).result = some (value, rest)) :
    ∃ word ∈ [flag.word, off], text = word.toList ++ rest ∧ value = .status flag word := by
  rw [Argument.status, paired, make, result_bind, Option.bind_eq_some_iff] at found
  obtain ⟨⟨word, left⟩, read, same⟩ := found
  cases same
  rw [result_firstOf_cons, result_firstOf_cons, result_firstOf_nil, Option.or_none,
    Option.or_eq_some_iff] at read
  obtain on | ⟨-, off⟩ := read
  · obtain ⟨rfl, whole⟩ := eq_append_of_result_literal on
    exact ⟨flag.word, .head _, whole, by rw [String.ofList_toList]⟩
  · obtain ⟨rfl, whole⟩ := eq_append_of_result_literal off
    exact ⟨_, .tail _ (.head _), whole, by rw [String.ofList_toList]⟩

/-- A flag misses its two words. -/
theorem Misses.status {flag : Flag} {off : String} (paired : flag.offWord? = some off)
    (misses : Misses (Argument.status flag) before after item) :
    before = [] ∧ ∃ word ∈ [flag.word, off], item = .literal word := by
  rw [Argument.status, paired] at misses
  obtain on | ⟨-, others⟩ := misses.make.cons
  · exact ⟨on.literal.1, flag.word, .head _, on.literal.2⟩
  · obtain off | ⟨-, none⟩ := others.cons
    · exact ⟨off.literal.1, _, .tail _ (.head _), off.literal.2⟩
    · exact absurd none Misses.not_nil

/-- What is read as a whole word is read by its rule, and no character of a file name comes behind
it. -/
theorem result_whole_eq_some_iff {α : Type} {rule : Rule α} {text : List Char} {value : α} :
    (whole rule text).result = some (value, rest) ↔
      (rule text).result = some (value, rest) ∧
        ∀ c ∈ rest.head?, CharClass.fileName.accepts c = false := by
  have ahead (text : List Char) : (notAhead (oneOf .fileName) text).result =
      if text.head?.any CharClass.fileName.accepts = true then none else some ((), text) := by
    rw [result_notAhead, isSome_oneOf]
  have refused : (∀ c ∈ rest.head?, CharClass.fileName.accepts c = false) ↔
      ¬rest.head?.any CharClass.fileName.accepts = true := by
    cases rest.head? <;> simp
  rw [whole, result_bind, refused]
  cases (rule text).result with
  | none => simp
  | some pair =>
    obtain ⟨other, left⟩ := pair
    rw [Option.bind_some, result_bind, ahead]
    by_cases next : left.head?.any CharClass.fileName.accepts = true
    · rw [if_pos next]
      refine iff_of_false (by simp) ?_
      rintro ⟨same, free⟩
      cases same
      exact free next
    · rw [if_neg next]
      constructor
      · intro same
        cases same
        exact ⟨rfl, next⟩
      · rintro ⟨same, -⟩
        cases same
        rfl

/-- The word of a flag that is read as a whole word comes before no character of a file name. -/
theorem of_result_whole_status {flag : Flag} {off : String} (paired : flag.offWord? = some off)
    {value : Argument}
    (found : (whole (Argument.status flag) (front ++ rest)).result = some (value, rest)) :
    WordBefore .fileName front rest ∧
      ∃ word ∈ [flag.word, off], front = word.toList ∧ value = .status flag word := by
  obtain ⟨read, free⟩ := result_whole_eq_some_iff.mp found
  obtain ⟨word, member, same, meant⟩ := of_result_status paired read
  have words : ∀ word ∈ [flag.word, off], word.toList ≠ [] ∧
      ∀ c ∈ word.toList, CharClass.fileName.accepts c = true := by
    cases flag <;> cases paired <;> decide
  obtain rfl := List.append_cancel_right same
  exact ⟨⟨(words word member).1, (words word member).2, free⟩, word, member, rfl, meant⟩

/-- A whole word misses what its rule misses. -/
theorem Misses.whole {α : Type} {rule : Rule α} [Built rule]
    (misses : Misses (whole rule) before after item) : Misses rule before after item := by
  obtain here | ⟨_, _, _, _, _, later⟩ := misses.bind
  · exact here
  · obtain ahead | ⟨_, _, _, _, _, none⟩ := later.bind
    · exact absurd ahead Misses.not_notAhead
    · exact absurd none Misses.not_pure

/-- Names of sequences are words of file names, and so are the words of the flag that may come among
them. -/
theorem forWords_seq :
    ForWords .fileName [whole (Argument.status .loops), make .sequence fileName] where
  alphanumeric c alphanumeric := by simp [CharClass.accepts, alphanumeric]
  equals := by decide
  space _ space := refused_of_isSpace (by decide) space
  reads front rest value found := by
    rw [result_firstOf_cons, Option.or_eq_some_iff] at found
    obtain flag | ⟨-, word⟩ := found
    · exact (of_result_whole_status (rfl : Flag.loops.offWord? = some "noloop") flag).1
    · rw [result_firstOf_cons, result_firstOf_nil, Option.or_none, make, result_bind,
        Option.bind_eq_some_iff] at word
      obtain ⟨⟨word, left⟩, read, same⟩ := word
      cases same
      obtain ⟨whole, word⟩ := of_result_chars read
      rwa [← List.append_cancel_right whole] at word
  found front rest word := by
    rw [result_firstOf_cons]
    cases flag : (whole (Argument.status .loops) (front ++ rest)).result with
    | none =>
      have read := result_chars word.1 word.2.1 word.2.2
      rw [Option.none_or, result_firstOf_cons, make, fileName, result_bind_of_some read]
      exact ⟨_, rfl⟩
    | some pair =>
      obtain ⟨value, left⟩ := pair
      obtain ⟨other, whole⟩ := Forward.suffix flag
      rw [← whole] at flag
      have paired : Flag.loops.offWord? = some "noloop" := rfl
      have same := word.unique (of_result_whole_status paired flag).1 whole.symm
      exact ⟨value, by rw [same]; rfl⟩
  misses before after item misses := by
    obtain flag | ⟨-, others⟩ := misses.cons
    · obtain ⟨rfl, word, member, rfl⟩ := Misses.status (rfl : Flag.loops.offWord? = some "noloop") flag.whole
      have words : ∀ word ∈ [Flag.loops.word, "noloop"],
          ∀ c ∈ word.toList, Text.isAlphanumeric c = true := by decide
      exact ⟨rfl, word.toList, words word member, List.prefix_refl _⟩
    · obtain word | ⟨-, none⟩ := others.cons
      · obtain ⟨rfl, rfl⟩ := word.make.chars
        exact ⟨rfl, ['a'], by decide, .fileName, rfl, 'a', rfl, by decide⟩
      · exact absurd none Misses.not_nil

/-- The command that plays a sequence completes texts. -/
theorem resumes_seq : Resumes (phraseOf .seq) :=
  .keyword (by decide) fun _ => .map (.spacedMany fun _ _ _ => forWords_seq.completes)

end ActionString.Grammar
