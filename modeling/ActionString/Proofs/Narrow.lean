import ActionString.Proofs.Reading
import ActionString.Proofs.Words

/-!
# Texts with narrow spaces

A text is narrowed by leaving out the spaces around its separators and at its ends, and by taking
one space for every other run of them. Its words stay as they are. So what begins at a word, behind
spaces or behind separators is found in the narrowed text where it is in the text, and the text
after it is narrowed, too.
-/

namespace ActionString.Grammar

open Rule

/-- Whether a character separates commands or clauses. -/
def isSeparator (c : Char) : Bool := c = ',' || c = ';'

/-- A text without the spaces before and behind its separators and before its end, and with one
space for every other run of spaces. -/
def narrow : List Char → List Char
  | [] => []
  | c :: rest =>
    if isSpace c then
      if (strip rest).head?.any fun d => !isSeparator d then ' ' :: narrow (strip rest)
      else narrow (strip rest)
    else if isSeparator c then c :: narrow (strip rest)
    else c :: narrow rest
termination_by text => text.length
decreasing_by
  all_goals
    have shorter := (strip_suffix rest).length_le
    rw [List.length_cons]
    omega

/-- The empty text is narrow. -/
@[simp] theorem narrow_nil : narrow [] = [] := by rw [narrow]

/-- The character of a word is kept. -/
theorem narrow_of_word {c : Char} (solid : isSpace c = false) (other : isSeparator c = false)
    (rest : List Char) : narrow (c :: rest) = c :: narrow rest := by
  rw [narrow, if_neg (by simp [solid]), if_neg (by simp [other])]

/-- A separator is kept, without the spaces behind it. -/
theorem narrow_of_separator {c : Char} (separator : isSeparator c = true) (rest : List Char) :
    narrow (c :: rest) = c :: narrow (strip rest) := by
  have solid : ¬isSpace c = true := by
    simp only [isSeparator, Bool.or_eq_true, decide_eq_true_eq] at separator
    obtain rfl | rfl := separator <;> decide
  rw [narrow, if_neg solid, if_pos separator]

/-- A run of spaces becomes one space, or nothing before a separator and before the end. -/
theorem exists_narrow_of_space {c : Char} (space : isSpace c = true) (rest : List Char) :
    ∃ gap, narrow (c :: rest) = gap ++ narrow (strip rest) ∧
      (gap = [' '] ∨ gap = [] ∧ ∀ d ∈ (strip rest).head?, isSeparator d = true) := by
  rw [narrow, if_pos space]
  by_cases wide : (strip rest).head?.any fun d => !isSeparator d
  · rw [if_pos wide]
    exact ⟨[' '], rfl, .inl rfl⟩
  · rw [if_neg wide]
    refine ⟨[], rfl, .inr ⟨rfl, fun d front => ?_⟩⟩
    rw [front, Option.any_some, Bool.not_eq_true', Bool.not_eq_false] at wide
    exact wide

/-- A text is built up from the end as it is narrowed: by runs of spaces, by separators with the
spaces behind them, and by characters of words. -/
@[elab_as_elim]
theorem narrow_induction {motive : List Char → Prop} (nil : motive [])
    (space : ∀ c rest, isSpace c = true → motive (strip rest) → motive (c :: rest))
    (separator : ∀ c rest, isSeparator c = true → motive (strip rest) → motive (c :: rest))
    (word : ∀ c rest, isSpace c = false → isSeparator c = false → motive rest → motive (c :: rest))
    (text : List Char) : motive text := by
  induction text using narrow.induct with
  | case1 => exact nil
  | case2 c rest isSpace _ ih => exact space c rest isSpace ih
  | case3 c rest isSpace _ ih => exact space c rest isSpace ih
  | case4 c rest _ isSeparator ih => exact separator c rest isSeparator ih
  | case5 c rest solid other ih => exact word c rest (by simpa using solid) (by simpa using other) ih

/-- The characters of a narrowed text are those of the text, and blanks. -/
theorem mem_narrow {text : List Char} : ∀ c ∈ narrow text, c ∈ text ∨ c = ' ' := by
  have behind {c : Char} {rest : List Char}
      (ih : ∀ d ∈ narrow (strip rest), d ∈ strip rest ∨ d = ' ') :
      ∀ d ∈ narrow (strip rest), d ∈ c :: rest ∨ d = ' ' := fun d member =>
    (ih d member).imp_left fun inside => .tail _ ((strip_suffix rest).subset inside)
  induction text using narrow_induction with
  | nil => simp
  | space c rest space ih =>
    obtain ⟨gap, same, kind⟩ := exists_narrow_of_space space rest
    rw [same, List.forall_mem_append]
    refine ⟨?_, behind ih⟩
    obtain rfl | ⟨rfl, -⟩ := kind
    · exact List.forall_mem_singleton.mpr (.inr rfl)
    · exact List.forall_mem_nil _
  | separator c rest separator ih =>
    rw [narrow_of_separator separator, List.forall_mem_cons]
    exact ⟨.inl (.head _), behind ih⟩
  | word c rest solid other ih =>
    rw [narrow_of_word solid other, List.forall_mem_cons]
    exact ⟨.inl (.head _), fun d member => (ih d member).imp_left (.tail _)⟩

/-- What is dropped together with all spaces in front of a text is dropped from the narrowed text,
too, and leaves the rest narrowed. -/
theorem dropWhile_narrow {accepts : Char → Bool}
    (spaces : ∀ c, isSpace c = true → accepts c = true) (text : List Char) :
    (narrow text).dropWhile accepts = narrow (text.dropWhile accepts) := by
  induction text using narrow_induction with
  | nil => rw [narrow_nil, List.dropWhile_nil, narrow_nil]
  | space c rest space ih =>
    obtain ⟨gap, same, kind⟩ := exists_narrow_of_space space rest
    have dropped : ∀ d ∈ gap, accepts d = true := by
      obtain rfl | ⟨rfl, -⟩ := kind
      · exact List.forall_mem_singleton.mpr (spaces ' ' (by decide))
      · exact List.forall_mem_nil _
    rw [same, List.dropWhile_append_of_pos dropped, ih, dropWhile_strip spaces,
      List.dropWhile_cons_of_pos (spaces c space)]
  | separator c rest separator ih =>
    rw [narrow_of_separator separator]
    by_cases accepted : accepts c = true
    · rw [List.dropWhile_cons_of_pos accepted, List.dropWhile_cons_of_pos accepted, ih,
        dropWhile_strip spaces]
    · rw [List.dropWhile_cons_of_neg accepted, List.dropWhile_cons_of_neg accepted,
        narrow_of_separator separator]
  | word c rest solid other ih =>
    rw [narrow_of_word solid other]
    by_cases accepted : accepts c = true
    · rw [List.dropWhile_cons_of_pos accepted, List.dropWhile_cons_of_pos accepted, ih]
    · rw [List.dropWhile_cons_of_neg accepted, List.dropWhile_cons_of_neg accepted,
        narrow_of_word solid other]

/-- Stripping a narrowed text narrows the stripped text. -/
theorem strip_narrow (text : List Char) : strip (narrow text) = narrow (strip text) :=
  dropWhile_narrow (fun _ space => space) text

/-- Passing over separators in a narrowed text narrows the text behind them. -/
theorem passOver_narrow (d : Char) (text : List Char) :
    passOver d (narrow text) = narrow (passOver d text) :=
  dropWhile_narrow (fun c space => by simp [space]) text

/-- A text that begins with no space begins alike when it is narrowed. -/
theorem head?_narrow_strip (text : List Char) :
    (narrow (strip text)).head? = (strip text).head? := by
  cases stripped : strip text with
  | nil => rw [narrow_nil]
  | cons c rest =>
    cases separator : isSeparator c with
    | true => rw [narrow_of_separator separator]; rfl
    | false => rw [narrow_of_word (isSpace_of_strip stripped) separator]; rfl

/-- Stripping leaves a text blank or not. -/
theorem blank_strip (text : List Char) : blank (strip text) = blank text := by
  rw [Bool.eq_iff_iff, ← strip_eq_nil_iff, ← strip_eq_nil_iff, strip_strip]

/-- Narrowing leaves a text blank or not. -/
theorem blank_narrow (text : List Char) : blank (narrow text) = blank text := by
  rw [Bool.eq_iff_iff, ← strip_eq_nil_iff, ← strip_eq_nil_iff, strip_narrow,
    ← List.head?_eq_none_iff, head?_narrow_strip, List.head?_eq_none_iff]

/-- A narrowed text closes a list of clauses when the text does. -/
theorem closes_narrow (text : List Char) : Closes (narrow text) ↔ Closes text := by
  have inner (rest : List Char) : blank (narrow (strip rest)) = blank rest := by
    rw [blank_narrow, blank_strip]
  rw [Closes, Closes, blank_narrow, strip_narrow]
  refine or_congr Iff.rfl ⟨?_, ?_⟩
  · rintro ⟨last, same, ended⟩
    have front : (strip text).head? = some ';' := by
      rw [← head?_narrow_strip, same]
      rfl
    obtain ⟨rest, stripped⟩ := List.head?_eq_some_iff.mp front
    rw [stripped, narrow_of_separator rfl, List.cons.injEq] at same
    exact ⟨rest, stripped, by rwa [← same.2, inner] at ended⟩
  · rintro ⟨rest, stripped, ended⟩
    exact ⟨narrow (strip rest), by rw [stripped, narrow_of_separator rfl], by rwa [inner]⟩

/-- A character of a text without quotes in which the only spaces are blanks. -/
def Ordinary (c : Char) : Prop := c ≠ '\x22' ∧ (isSpace c = true → c = ' ')

/-- A separator ends words. -/
theorem mem_ends_of_isSeparator {c : Char} (separator : isSeparator c = true) :
    c ∈ [' ', ',', ';'] := by
  simp only [isSeparator, Bool.or_eq_true, decide_eq_true_eq] at separator
  obtain rfl | rfl := separator <;> decide

/-- The character of a word is kept where it is, and what begins with another one still ends words
when it is narrowed. -/
theorem narrow_cons_cases {c : Char} (plain : Ordinary c) (rest : List Char) :
    (c ∉ [' ', ',', ';'] ∧ narrow (c :: rest) = c :: narrow rest) ∨
      (c ∈ [' ', ',', ';'] ∧ Ends (narrow (c :: rest))) := by
  cases space : isSpace c with
  | true =>
    have blank := plain.2 space
    obtain ⟨gap, same, rfl | ⟨rfl, ended⟩⟩ := exists_narrow_of_space space rest
    · rw [same]
      exact .inr ⟨by rw [blank]; decide, Ends.space _⟩
    · rw [same]
      refine .inr ⟨by rw [blank]; decide, fun d front => mem_ends_of_isSeparator (ended d ?_)⟩
      rwa [List.nil_append, head?_narrow_strip] at front
  | false =>
    cases separator : isSeparator c with
    | true =>
      have stop := mem_ends_of_isSeparator separator
      rw [narrow_of_separator separator]
      exact .inr ⟨stop, fun d front => Option.some.inj front ▸ stop⟩
    | false =>
      refine .inl ⟨fun stop => ?_, narrow_of_word space separator rest⟩
      simp only [List.mem_cons, List.not_mem_nil, or_false] at stop
      obtain rfl | rfl | rfl := stop
      · cases space
      · cases separator
      · cases separator

/-- Words of a class are the same in a narrowed text, and what comes after them is narrowed. -/
theorem span_narrow {accepts : Char → Bool}
    (refused : ∀ c ∈ [' ', ',', ';'], accepts c = false) {text : List Char}
    (plain : ∀ c ∈ text, Ordinary c) :
    (narrow text).takeWhile accepts = text.takeWhile accepts ∧
      (narrow text).dropWhile accepts = narrow (text.dropWhile accepts) := by
  induction text with
  | nil => simp
  | cons c rest ih =>
    rw [List.forall_mem_cons] at plain
    obtain ⟨-, same⟩ | ⟨stop, ends⟩ := narrow_cons_cases plain.1 rest
    · rw [same]
      by_cases accepted : accepts c = true
      · obtain ⟨taken, dropped⟩ := ih plain.2
        rw [List.takeWhile_cons_of_pos accepted, List.takeWhile_cons_of_pos accepted,
          List.dropWhile_cons_of_pos accepted, List.dropWhile_cons_of_pos accepted, taken, dropped]
        exact ⟨rfl, rfl⟩
      · rw [List.takeWhile_cons_of_neg accepted, List.takeWhile_cons_of_neg accepted,
          List.dropWhile_cons_of_neg accepted, List.dropWhile_cons_of_neg accepted, same]
        exact ⟨rfl, rfl⟩
    · have other : ¬accepts c = true := by simp [refused c stop]
      have span := @span_append accepts [] _ (List.forall_mem_nil _) (ends.refused refused)
      rw [List.takeWhile_cons_of_neg other, List.dropWhile_cons_of_neg other]
      exact span

/-- A word stands at the front of a narrowed text where it stands at the front of the text. -/
theorem isPrefixOf?_narrow {word text : List Char}
    (unbroken : ∀ w ∈ word, ∀ c ∈ [' ', ',', ';'], c.toLower ≠ w.toLower)
    (plain : ∀ c ∈ text, Ordinary c) :
    word.isPrefixOf? (narrow text) = (word.isPrefixOf? text).map narrow := by
  induction word generalizing text with
  | nil => rfl
  | cons w word ih =>
    rw [List.forall_mem_cons] at unbroken
    have differs {c : Char} (stop : c ∈ [' ', ',', ';']) : w ≠ c := fun same =>
      unbroken.1 c stop (by rw [same])
    cases text with
    | nil => simp [List.isPrefixOf?]
    | cons c rest =>
      rw [List.forall_mem_cons] at plain
      obtain ⟨-, same⟩ | ⟨stop, ends⟩ := narrow_cons_cases plain.1 rest
      · rw [same]
        by_cases equal : w = c
        · simp only [List.isPrefixOf?, equal, beq_self_eq_true, if_true, ih unbroken.2 plain.2]
        · simp [List.isPrefixOf?, equal]
      · have missed : (w :: word).isPrefixOf? (narrow (c :: rest)) = none := by
          cases narrowed : narrow (c :: rest) with
          | nil => rfl
          | cons d more =>
            have other := differs (ends d (by rw [narrowed]; rfl))
            simp [List.isPrefixOf?, other]
        rw [missed]
        simp [List.isPrefixOf?, differs stop]

/-- A word in any case stands at the front of a narrowed text where it stands at the front of the
text. -/
theorem stripFolded_narrow {word text : List Char}
    (unbroken : ∀ w ∈ word, ∀ c ∈ [' ', ',', ';'], c.toLower ≠ w.toLower)
    (plain : ∀ c ∈ text, Ordinary c) :
    Text.stripFolded word (narrow text) =
      (Text.stripFolded word text).map fun found => (found.1, narrow found.2) := by
  induction word generalizing text with
  | nil => rfl
  | cons w word ih =>
    rw [List.forall_mem_cons] at unbroken
    cases text with
    | nil => simp [Text.stripFolded]
    | cons c rest =>
      rw [List.forall_mem_cons] at plain
      obtain ⟨-, same⟩ | ⟨stop, ends⟩ := narrow_cons_cases plain.1 rest
      · rw [same]
        by_cases equal : c.toLower = w.toLower
        · simp only [Text.stripFolded, equal, if_true, ih unbroken.2 plain.2, Option.map_map]
          rfl
        · simp [Text.stripFolded, equal]
      · have missed : Text.stripFolded (w :: word) (narrow (c :: rest)) = none := by
          cases narrowed : narrow (c :: rest) with
          | nil => rfl
          | cons d more =>
            have other := unbroken.1 d (ends d (by rw [narrowed]; rfl))
            simp [Text.stripFolded, other]
        rw [missed]
        simp [Text.stripFolded, unbroken.1 c stop]

end ActionString.Grammar
