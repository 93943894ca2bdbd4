import ActionString.Proofs.Diagnostics
import ActionString.Proofs.Named

/-!
# Options of an animation

An option of an animation is the tag, or a word of the flag as a whole word. Whether one is read
depends on the text only up to the character behind it, and a name is taken for none unless it is a
word of the flag, or the key of the tag in front of an equals sign. So what is looked for as an
option in front of a name is part of the name, unless that is the key of the tag.
-/

namespace ActionString.Grammar

open Rule Word

variable {kind : CharClass} {front rest before after text : List Char} {item : Expected}

/-- The words of the flag among the options. -/
def maskWords : List String := ["mask", "nomask"]

theorem maskPaired : Flag.mask.offWord? = some "nomask" := rfl

/-- The first letter of a word of the flag. -/
theorem exists_cons_of_mem_maskWords {word : String} (member : word ∈ maskWords) :
    ∃ c tail, word.toList = c :: tail ∧ c ∈ ['m', 'n'] := by
  have words : ∀ word ∈ maskWords, ∃ c tail, word.toList = c :: tail ∧ c ∈ ['m', 'n'] := by
    simp [maskWords]
  exact words word member

/-- An option of an animation that comes up to the rest of a text: the tag, or a word of the flag as
a whole word. -/
inductive IsOption (front rest : List Char) : Argument → Prop
  | tag {digits : List Char} (spelt : front = "tag=".toList ++ digits)
      (made : WordBefore .digit digits rest) :
      IsOption front rest (.parameter "tag" (.integer (String.ofList digits)))
  | mask {word : String} (member : word ∈ maskWords) (spelt : front = word.toList)
      (made : WordBefore .fileName front rest) : IsOption front rest (.status .mask word)

/-- An option in front of a text is one in front of every text that begins alike, and at the end. -/
theorem IsOption.of_head {option : Argument} {more : List Char} (is : IsOption front rest option)
    (same : ∀ c ∈ more.head?, c ∈ rest.head?) : IsOption front more option := by
  cases is with
  | tag spelt made => exact .tag spelt (made.of_head same)
  | mask member spelt made => exact .mask member spelt (made.of_head same)

/-- An option begins with the letter of its word. -/
theorem IsOption.exists_cons {option : Argument} (is : IsOption front rest option) :
    ∃ c tail, front = c :: tail ∧ c ∈ ['t', 'm', 'n'] := by
  cases is with
  | tag spelt made => exact ⟨'t', _, spelt, by decide⟩
  | mask member spelt made =>
    obtain ⟨c, tail, same, letter⟩ := exists_cons_of_mem_maskWords member
    exact ⟨c, tail, spelt.trans same, .tail _ letter⟩

/-- An option of an animation is the tag or a word of the flag. -/
theorem result_option_eq_some_iff {option : Argument} :
    (Argument.animate (front ++ rest)).result = some (option, rest) ↔ IsOption front rest option := by
  rw [Argument.animate, result_firstOf_cons, result_firstOf_cons, result_firstOf_nil, Option.or_none]
  constructor
  · intro found
    obtain tag | ⟨-, flag⟩ := Option.or_eq_some_iff.mp found
    · rw [Argument.tag, Argument.integerParameter, Argument.parameter, result_bind,
        Option.bind_eq_some_iff] at tag
      obtain ⟨⟨key, left⟩, first, tag⟩ := tag
      rw [result_bind, Option.bind_eq_some_iff] at tag
      obtain ⟨⟨equals, behind⟩, second, tag⟩ := tag
      rw [result_bind, Option.bind_eq_some_iff] at tag
      obtain ⟨⟨digits, last⟩, third, same⟩ := tag
      cases same
      obtain ⟨rfl, whole⟩ := eq_append_of_result_literal first
      obtain ⟨-, rfl⟩ := eq_append_of_result_literal second
      obtain ⟨rfl, word⟩ := of_result_chars third
      exact .tag (List.append_cancel_right (whole.trans (List.append_assoc _ _ _).symm)) word
    · obtain ⟨word, other, member, spelt, rfl⟩ := of_result_whole_status maskPaired flag
      exact .mask member spelt word
  · intro is
    cases is with
    | @tag digits spelt made =>
      have key : (literal "tag" ("tag=".toList ++ (digits ++ rest))).result =
          some ("tag".toList, '=' :: (digits ++ rest)) := result_literal "tag" _
      rw [spelt, List.append_assoc, Argument.tag, Argument.integerParameter, integer,
        result_parameter .integer key (result_chars made.1 made.2.1 made.2.2), String.ofList_toList]
      rfl
    | @mask word member spelt made =>
      have missed : (Argument.tag (front ++ rest)).result = none ∧
          (Argument.status .mask (front ++ rest)).result = some (.status .mask word, rest) := by
        obtain rfl | rfl : word = "mask" ∨ word = "nomask" := by simpa [maskWords] using member
        · exact spelt ▸ ⟨rfl, rfl⟩
        · exact spelt ▸ ⟨rfl, rfl⟩
      rw [missed.1, Option.none_or]
      exact result_whole_eq_some_iff.mpr ⟨missed.2, made.2.2⟩

/-- The classes of characters that the names in an animation are made of. -/
theorem of_mem_names (names : kind ∈ [CharClass.objectName, .fileName]) :
    kind.accepts '=' = false ∧ (∀ c : Char, Text.isAlphanumeric c = true → kind.accepts c = true) ∧
      ∀ c : Char, kind.accepts c = true → CharClass.fileName.accepts c = true := by
  obtain rfl | rfl : kind = .objectName ∨ kind = .fileName := by simpa using names
  · refine ⟨by decide, fun c alphanumeric => by simp [CharClass.accepts, alphanumeric], ?_⟩
    intro c accepted
    simp only [CharClass.accepts, Bool.or_eq_true, decide_eq_true_eq] at accepted ⊢
    obtain (alphanumeric | score) | hyphen := accepted
    · exact .inl (.inl (.inl alphanumeric))
    · exact .inl (.inr score)
    · exact .inr hyphen
  · exact ⟨by decide, fun c alphanumeric => by simp [CharClass.accepts, alphanumeric], fun _ => id⟩

/-- A whole name is read as no option unless it is a word of the flag, or the key of the tag in front
of an equals sign. -/
theorem result_option_eq_none_iff (names : kind ∈ [CharClass.objectName, .fileName])
    (word : WordBefore kind front rest) (other : rest.head? ≠ some '=') :
    (Argument.animate (front ++ rest)).result = none ↔
      ∀ mask ∈ maskWords, front = mask.toList →
        ∃ c ∈ rest.head?, CharClass.fileName.accepts c = true := by
  obtain ⟨equals, letters, files⟩ := of_mem_names names
  constructor
  · intro none mask member same
    by_contra refused
    have is : IsOption front rest (.status .mask mask) :=
      .mask member same ⟨word.1, fun c member => files c (word.2.1 c member),
        fun c head => Bool.eq_false_iff.mpr fun accepted => refused ⟨c, head, accepted⟩⟩
    rw [result_option_eq_some_iff.mpr is] at none
    cases none
  · intro goesOn
    rw [← Option.not_isSome_iff_eq_none]
    intro some
    obtain ⟨⟨option, last⟩, found⟩ := Option.isSome_iff_exists.mp some
    obtain ⟨start, whole⟩ := Forward.suffix found
    rw [← whole] at found
    cases result_option_eq_some_iff.mp found with
    | @tag digits spelt made =>
      have key : ∀ c ∈ "tag".toList, Text.isAlphanumeric c = true := by decide
      refine word.ne_key other equals (fun c member => letters c (key c member)) (digits ++ last) ?_
      rw [← whole, spelt, List.append_assoc]
      rfl
    | @mask mask member spelt made =>
      -- The word of the flag is a name of either class, so it is the whole name.
      have own : ∀ mask ∈ maskWords, ∀ c ∈ mask.toList, Text.isAlphanumeric c = true := by decide
      have same := word.unique
        ⟨made.1, fun c inside => letters c (own mask member c (spelt ▸ inside)), ?_⟩ whole.symm
      · rw [same] at whole made
        obtain rfl := List.append_cancel_right whole
        obtain ⟨c, head, accepted⟩ := goesOn mask member spelt
        rw [made.2.2 c head] at accepted
        cases accepted
      · intro c head
        refine Bool.eq_false_iff.mpr fun accepted => ?_
        have taken := files c accepted
        rw [made.2.2 c head] at taken
        cases taken

/-- Whether a name is read as an option depends on the character behind it. -/
theorem result_option_eq_none_of_head (names : kind ∈ [CharClass.objectName, .fileName])
    (word : WordBefore kind front rest) (other : rest.head? ≠ some '=')
    (missed : (Argument.animate (front ++ rest)).result = none) (same : text.head? = rest.head?) :
    (Argument.animate (front ++ text)).result = none := by
  rw [result_option_eq_none_iff names (word.of_head fun c member => same ▸ member) (same ▸ other),
    same]
  exact (result_option_eq_none_iff names word other).mp missed

/-- What is looked for at the beginning of an option. -/
def optionItems : List Expected := .literal "tag" :: maskWords.map .literal

/-- An option misses its words, or the equals sign or the digits of the tag. -/
theorem Misses.option (misses : Misses Argument.animate before after item) :
    before = [] ∧ item ∈ optionItems ∨ before = "tag".toList ∧ item = .literal "=" ∨
      before = "tag=".toList ∧ item = .charClass CharClass.digit.description := by
  obtain tag | ⟨-, others⟩ := misses.cons
  · obtain key | ⟨_, front, middle, rfl, read, later⟩ := tag.bind
    · obtain ⟨rfl, rfl⟩ := key.literal
      exact .inl ⟨rfl, .head _⟩
    · right
      obtain ⟨-, same⟩ := eq_append_of_result_literal read
      rw [← List.append_assoc] at same
      rw [List.append_cancel_right same]
      obtain equals | ⟨_, second, behind, rfl, read, value⟩ := later.bind
      · obtain ⟨rfl, rfl⟩ := equals.literal
        exact .inl ⟨rfl, rfl⟩
      · obtain ⟨-, same⟩ := eq_append_of_result_literal read
        rw [← List.append_assoc] at same
        rw [List.append_cancel_right same]
        obtain digit | ⟨_, _, _, _, _, none⟩ := value.bind
        · obtain ⟨rfl, rfl⟩ := digit.chars
          exact .inr ⟨rfl, rfl⟩
        · exact absurd none Misses.not_pure
  · obtain flag | ⟨-, none⟩ := others.cons
    · obtain ⟨rfl, word, member, rfl⟩ := Misses.status maskPaired flag.whole
      exact .inl ⟨rfl, .tail _ (List.mem_map_of_mem member)⟩
    · exact absurd none Misses.not_nil

/-- An option that is cut short is none. -/
theorem result_option_of_misses (misses : Misses Argument.animate before after item)
    (nonempty : before ≠ []) : (Argument.animate (before ++ after)).result = none := by
  by_contra read
  obtain ⟨⟨option, last⟩, found⟩ := Option.ne_none_iff_exists'.mp read
  obtain ⟨start, whole⟩ := Forward.suffix found
  rw [← whole] at found
  refine misses.not_standsAt ?_
  obtain ⟨tail, rfl, place⟩ : ∃ tail, before = "tag".toList ++ tail ∧
      (tail = [] ∧ item = .literal "=" ∨
        tail = ['='] ∧ item = .charClass CharClass.digit.description) := by
    obtain ⟨none, -⟩ | ⟨rfl, rfl⟩ | ⟨rfl, rfl⟩ := misses.option
    · exact absurd none nonempty
    · exact ⟨[], rfl, .inl ⟨rfl, rfl⟩⟩
    · exact ⟨['='], rfl, .inr ⟨rfl, rfl⟩⟩
  cases result_option_eq_some_iff.mp found with
  | @tag digits spelt made =>
    have cut : '=' :: (digits ++ last) = tail ++ after := by
      rw [spelt] at whole
      exact (List.append_right_inj "tag".toList).mp (by simpa using whole)
    obtain ⟨rfl, rfl⟩ | ⟨rfl, rfl⟩ := place
    · exact ⟨digits ++ last, cut⟩
    · obtain ⟨d, others, rfl⟩ := List.exists_cons_of_ne_nil made.1
      obtain rfl : d :: (others ++ last) = after := (List.cons.inj cut).2
      intro kind same
      rw [CharClass.description_injective same]
      exact ⟨d, rfl, made.2.1 d (.head _)⟩
  | @mask mask member spelt made =>
    have heads : ∀ mask ∈ maskWords, ∀ rest : List Char,
        (mask.toList ++ rest).head? ≠ some 't' := by simp [maskWords]
    rw [spelt] at whole
    exact absurd (by rw [whole]; rfl) (heads mask member last)

/-- Behind options, what is looked for begins a name, or it completes the tag at its front. -/
theorem of_misses_options (misses : Misses (spacedMany Argument.animate) before after item)
    {values : List Argument}
    (found : (spacedMany Argument.animate (before ++ after)).result = some (values, rest)) :
    (strip rest).length ≤ after.length ∨
      strip rest = "tag".toList ++ after ∧ item = .literal "=" ∨
      strip rest = "tag=".toList ++ after ∧ item = .charClass CharClass.digit.description := by
  refine awaits_induction (motive := fun before after item =>
    ∀ values rest, (spacedMany Argument.animate (before ++ after)).result = some (values, rest) →
      (strip rest).length ≤ after.length ∨
        strip rest = "tag".toList ++ after ∧ item = .literal "=" ∨
        strip rest = "tag=".toList ++ after ∧ item = .charClass CharClass.digit.description)
    ?_ ?_ ?_ ?_ (.inl misses) values rest found
  · intro after values rest found
    exact .inl ((strip_suffix rest).length_le.trans (Forward.length_le found))
  · intro before after item misses values rest found
    by_cases nonempty : before = []
    · subst nonempty
      exact .inl ((strip_suffix rest).length_le.trans (Forward.length_le found))
    · right
      have missed := result_option_of_misses misses nonempty
      obtain ⟨none, -⟩ | ⟨rfl, rfl⟩ | ⟨rfl, rfl⟩ := misses.option
      · exact absurd none nonempty
      · rw [spacedMany_of_none missed] at found
        cases found
        exact .inl ⟨rfl, rfl⟩
      · rw [spacedMany_of_none missed] at found
        cases found
        exact .inr ⟨rfl, rfl⟩
  · intro gap before after item blanks ih values rest found
    obtain ⟨values, last, inner⟩ := exists_spacedMany Argument.animate (before ++ after)
    obtain ⟨other, read, place⟩ := exists_spacedMany_gap blanks inner
    rw [List.append_assoc, read] at found
    cases found
    have same : strip rest = strip last := by
      obtain rfl | ⟨-, rfl⟩ := place
      · rfl
      · exact strip_append_of_blank blanks _
    rw [same]
    exact ih _ _ inner
  · intro front value before after item found _ ih values rest read
    obtain ⟨others, last, inner⟩ := exists_spacedMany Argument.animate (before ++ after)
    have stripped : strip (front ++ (before ++ after)) = front ++ (before ++ after) := by
      obtain ⟨c, tail, rfl, solid⟩ := (result_option_eq_some_iff.mp found).exists_cons
      have heads : ∀ c ∈ ['t', 'm', 'n'], isSpace c = false := by decide
      exact strip_cons_of_not (heads c solid) _
    rw [List.append_assoc, result_spacedMany_of_some (by rw [stripped, found]) inner] at read
    cases read
    exact ih _ _ inner

/-- What options leave, they leave wherever they are read in front of a text that begins alike, and
behind them reading goes on as it does there. -/
theorem result_options_append {values others : List Argument} {last : List Char}
    (found : (spacedMany Argument.animate (front ++ rest)).result = some (values, rest))
    (same : text.head? = rest.head?)
    (more : (spacedMany Argument.animate text).result = some (others, last)) :
    (spacedMany Argument.animate (front ++ text)).result = some (values ++ others, last) := by
  induction length : front.length using Nat.strong_induction_on generalizing front values with
  | _ size ih =>
    subst length
    cases first : (Argument.animate (strip (front ++ rest))).result with
    | none =>
      rw [spacedMany_of_none first, Option.some.injEq, Prod.mk.injEq] at found
      obtain ⟨rfl, none⟩ := found
      rw [List.append_left_eq_self.mp none]
      exact more
    | some pair =>
      obtain ⟨option, left⟩ := pair
      have shorter := (Consuming.shorter first).trans_le (strip_suffix _).length_le
      rw [spacedMany_of_some first shorter, Option.map_eq_some_iff] at found
      obtain ⟨⟨inner, other⟩, later, eq⟩ := found
      cases eq
      obtain ⟨gap, cut, blanks, -⟩ := exists_dropWhile_eq isSpace (front ++ rest)
      change front ++ rest = gap ++ strip (front ++ rest) at cut
      obtain ⟨start, whole⟩ := Forward.suffix first
      obtain ⟨middle, rfl⟩ := Forward.suffix later
      rw [← whole, ← List.append_assoc, ← List.append_assoc] at cut
      obtain rfl := List.append_cancel_right cut
      rw [← whole] at first
      have is := result_option_eq_some_iff.mp first
      obtain ⟨c, tail, rfl, heads⟩ := is.exists_cons
      have solid : ∀ c ∈ ['t', 'm', 'n'], isSpace c = false := by decide
      have again : IsOption (c :: tail) (middle ++ text) option := by
        refine is.of_head fun d member => ?_
        cases middle with
        | nil => exact same ▸ member
        | cons => exact member
      have stripped : strip (gap ++ (c :: tail) ++ middle ++ text) = c :: tail ++ (middle ++ text) := by
        rw [List.append_assoc, List.append_assoc, strip_append_of_blank (List.all_eq_true.mpr blanks)]
        exact strip_cons_of_not (solid c heads) _
      refine result_spacedMany_of_some ?_ (ih middle.length ?_ later rfl)
      · rw [stripped]
        exact result_option_eq_some_iff.mpr again
      · simp only [List.length_append, List.length_cons]
        omega

end ActionString.Grammar
