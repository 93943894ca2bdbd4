import ActionString.Proofs.Forward

/-!
# Lists with separators

How a list goes on depends on the first character after spaces, and on the text after all spaces
and separators that come then. These two facts replace the recursion of the rules for separators
in the proofs about clauses and commands. Where a text holds no other use of the separator, it can
be cut there into pieces, one for each element of the list.
-/

namespace ActionString.Grammar.Rule

variable {α : Type} {separator : String} {d : Char}

/-- A text without the spaces and separators at its front. -/
def passOver (d : Char) (text : List Char) : List Char :=
  text.dropWhile fun c => isSpace c || c == d

/-- The text after spaces and separators is a part of the text. -/
theorem passOver_suffix (text : List Char) : passOver d text <:+ text := List.dropWhile_suffix _

/-- What passes over spaces passes over those at the front. -/
theorem dropWhile_strip {accepts : Char → Bool}
    (spaces : ∀ c, isSpace c = true → accepts c = true) (text : List Char) :
    (strip text).dropWhile accepts = text.dropWhile accepts := by
  induction text with
  | nil => rfl
  | cons c text ih =>
    by_cases space : isSpace c = true
    · rw [strip_cons_of_isSpace space, ih, List.dropWhile_cons_of_pos (spaces c space)]
    · rw [strip_cons_of_not (by simpa using space)]

/-- Passing over separators begins with stripping spaces. -/
theorem passOver_strip (text : List Char) : passOver d (strip text) = passOver d text :=
  dropWhile_strip (fun c space => by simp [space]) text

/-- A separator is passed over. -/
theorem passOver_cons (text : List Char) : passOver d (d :: text) = passOver d text := by
  rw [passOver, List.dropWhile_cons_of_pos (by simp)]
  rfl

/-- A text gets shorter when a separator is passed over. -/
theorem length_passOver_lt {text : List Char} (front : (strip text).head? = some d) :
    (passOver d text).length < text.length := by
  obtain ⟨rest, stripped⟩ := List.head?_eq_some_iff.mp front
  have first := (passOver_suffix (d := d) rest).length_le
  have second := (strip_suffix text).length_le
  rw [stripped, List.length_cons] at second
  rw [← passOver_strip, stripped, passOver_cons]
  omega

/-- A text that begins with neither a space nor a separator is not changed. -/
theorem passOver_of_solid {c : Char} (solid : isSpace c = false) (other : c ≠ d)
    (text : List Char) : passOver d (c :: text) = c :: text := by
  rw [passOver, List.dropWhile_cons_of_neg (by simp [solid, other])]

/-- After separators and spaces only, those of the text after them are passed over as well. -/
theorem passOver_append_of_nil {front : List Char} (ended : passOver d front = [])
    (text : List Char) : passOver d (front ++ text) = passOver d text := by
  rw [passOver] at ended
  rw [passOver, List.dropWhile_append, ended]
  rfl

/-- Separators are passed over up to other text. -/
theorem passOver_append_of_ne {front : List Char} (other : passOver d front ≠ [])
    (text : List Char) : passOver d (front ++ text) = passOver d front ++ text := by
  rw [passOver] at other ⊢
  rw [List.dropWhile_append, if_neg (by simpa using other)]
  rfl

/-- A separator is read from a text that begins with it. -/
theorem result_literal_self (single : separator.toList = [d]) (rest : List Char) :
    (literal separator (d :: rest)).result = some ([d], rest) := by
  simp [literal, expecting, single, List.isPrefixOf?]

/-- A separator is not read from a text that begins with another character, or is empty. -/
theorem result_literal_of_ne (single : separator.toList = [d]) {text : List Char}
    (other : text.head? ≠ some d) : (literal separator text).result = none := by
  cases text with
  | nil => simp [literal, expecting, single, List.isPrefixOf?]
  | cons c rest =>
    have differs : d ≠ c := fun same => other (by rw [same]; rfl)
    simp [literal, expecting, single, List.isPrefixOf?, differs]

/-- Repeated separators are read up to spaces. -/
theorem exists_result_spacedMany_literal (single : separator.toList = [d]) (text : List Char) :
    ∃ found rest, (spacedMany (literal separator) text).result = some (found, rest) ∧
      strip rest = passOver d text := by
  induction length : text.length using Nat.strong_induction_on generalizing text with
  | _ size ih =>
    subst length
    by_cases front : (strip text).head? = some d
    · obtain ⟨rest, stripped⟩ : ∃ rest, strip text = d :: rest := by
        cases stripped : strip text with
        | nil => simp [stripped] at front
        | cons c rest =>
          rw [stripped] at front
          exact ⟨rest, by rw [Option.some.inj front]⟩
      have first : (literal separator (strip text)).result = some ([d], rest) := by
        rw [stripped]
        exact result_literal_self single rest
      have shorter : rest.length < text.length := by
        have bound := (strip_suffix text).length_le
        rw [stripped, List.length_cons] at bound
        omega
      obtain ⟨found, last, more, stripLast⟩ := ih _ shorter rest rfl
      refine ⟨[d] :: found, last, ?_, ?_⟩
      · rw [spacedMany_of_some first shorter, more]
        rfl
      · rw [stripLast, ← passOver_strip text, stripped, passOver_cons]
    · have missed := result_literal_of_ne single front
      refine ⟨[], text, ?_, ?_⟩
      · rw [spacedMany_of_none missed]
      · cases stripped : strip text with
        | nil => rw [← passOver_strip, stripped]; rfl
        | cons c rest =>
          have other : c ≠ d := fun same => front (by rw [stripped, same]; rfl)
          rw [← passOver_strip, stripped, passOver_of_solid (isSpace_of_strip stripped) other]

/-- Without a separator after spaces, no element follows. -/
theorem result_follower_of_ne (single : separator.toList = [d]) (element : Rule α)
    {text : List Char} (other : (strip text).head? ≠ some d) :
    (follower separator element text).result = none := by
  simp [follower, separators, result_bind, result_literal_of_ne single other]

/-- With a separator after spaces, the element is read after all spaces and separators. -/
theorem result_follower_of_eq (single : separator.toList = [d]) (element : Rule α)
    {text : List Char} (front : (strip text).head? = some d) :
    (follower separator element text).result = (element (passOver d text)).result := by
  cases stripped : strip text with
  | nil => simp [stripped] at front
  | cons c rest =>
    rw [stripped] at front
    cases front
    obtain ⟨found, last, more, stripLast⟩ := exists_result_spacedMany_literal single rest
    have passed : passOver d text = passOver d rest := by
      rw [← passOver_strip text, stripped, passOver_cons]
    rw [← stripLast] at passed
    simp [follower, separators, result_bind, stripped, result_literal_self single, more, passed]

/-- A list ends where no separator follows. -/
theorem result_followers_of_ne (single : separator.toList = [d]) (element : Rule α)
    {text : List Char} (other : (strip text).head? ≠ some d) :
    (followers separator element text).result = some ([], text) := by
  rw [followers_of_none (result_follower_of_ne single element other)]

/-- A list ends, and the separators are given back, where no element follows them. -/
theorem result_followers_of_none (single : separator.toList = [d]) {element : Rule α}
    {text : List Char} (missed : (element (passOver d text)).result = none) :
    (followers separator element text).result = some ([], text) := by
  by_cases front : (strip text).head? = some d
  · rw [followers_of_none (by rw [result_follower_of_eq single element front, missed])]
  · exact result_followers_of_ne single element front

/-- A list goes on with the element after the separators. -/
theorem result_followers_of_some (single : separator.toList = [d]) {element : Rule α}
    [Forward element] {text rest : List Char} {value : α} (front : (strip text).head? = some d)
    (found : (element (passOver d text)).result = some (value, rest)) :
    (followers separator element text).result =
      (followers separator element rest).result.map fun more => (value :: more.1, more.2) := by
  have shorter : rest.length < text.length :=
    Nat.lt_of_le_of_lt (Forward.length_le found) (length_passOver_lt front)
  rw [followers_of_some (by rw [result_follower_of_eq single element front, found]) shorter]

/-- What follows an element is read whatever it is, if only as nothing. -/
theorem exists_result_followers (separator : String) (element : Rule α) (text : List Char) :
    ∃ values rest, (followers separator element text).result = some (values, rest) := by
  induction text using repeat_induction (follower separator element) with
  | stop text missed => exact ⟨[], text, by rw [followers_of_none missed]⟩
  | idle text value rest found same => exact ⟨[value], rest, by rw [followers_of_idle found same]⟩
  | step text value rest found shorter ih =>
    obtain ⟨values, last, more⟩ := ih
    exact ⟨value :: values, last, by rw [followers_of_some found shorter, more]; rfl⟩

/-- A list without a first element is empty. -/
theorem result_separated_of_none {element : Rule α} {text : List Char}
    (missed : (element (strip text)).result = none) :
    (separated separator element text).result = some ([], text) := by
  simp [separated, result_bind, spacedOptional, result_optional, missed]

/-- A list begins with its first element. -/
theorem result_separated_of_some {element : Rule α} {text rest : List Char} {value : α}
    (found : (element (strip text)).result = some (value, rest)) :
    (separated separator element text).result =
      (followers separator element rest).result.map fun more => (value :: more.1, more.2) := by
  obtain ⟨values, last, more⟩ := exists_result_followers separator element rest
  simp [separated, result_bind, spacedOptional, result_optional, found, more]

/-- A text is cut into pieces at a separator. -/
inductive Cut (d : Char) : List Char → List (List Char) → Prop where
  | last {piece : List Char} (whole : d ∉ piece) : Cut d piece [piece]
  | more {piece text : List Char} {pieces : List (List Char)} (whole : d ∉ piece)
      (others : Cut d text pieces) : Cut d (piece ++ d :: text) (piece :: pieces)

/-- Every text is cut by splitting it. -/
theorem cut_splitOn (d : Char) (text : List Char) : Cut d text (text.splitOn d) := by
  induction length : text.length using Nat.strong_induction_on generalizing text with
  | _ size ih =>
    subst length
    by_cases inside : d ∈ text
    · obtain ⟨piece, rest, rfl, whole⟩ := List.eq_append_cons_of_mem inside
      rw [List.splitOn_append_cons_self_of_not_mem whole]
      refine .more whole (ih rest.length ?_ rest rfl)
      rw [List.length_append, List.length_cons]
      omega
    · rw [List.splitOn_eq_singleton inside]
      exact .last inside

/-- A text has a first piece. -/
theorem Cut.ne_nil {text : List Char} {pieces : List (List Char)} (cut : Cut d text pieces) :
    pieces ≠ [] := by
  cases cut <;> exact List.cons_ne_nil _ _

/-- The pieces of a text are made of its characters other than the separator. -/
theorem Cut.mem {text piece : List Char} {pieces : List (List Char)} (cut : Cut d text pieces)
    (member : piece ∈ pieces) : ∀ c ∈ piece, c ∈ text ∧ c ≠ d := by
  have apart {piece : List Char} (whole : d ∉ piece) : ∀ c ∈ piece, c ≠ d := fun c inside same =>
    whole (same ▸ inside)
  induction cut with
  | last whole =>
    rw [List.mem_singleton] at member
    subst member
    exact fun c inside => ⟨inside, apart whole c inside⟩
  | more whole _ ih =>
    intro c inside
    obtain rfl | member := List.mem_cons.mp member
    · exact ⟨List.mem_append_left _ inside, apart whole c inside⟩
    · exact ⟨List.mem_append_right _ (.tail _ (ih member c inside).1), (ih member c inside).2⟩

end ActionString.Grammar.Rule
