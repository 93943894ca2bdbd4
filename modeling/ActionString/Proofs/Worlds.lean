import ActionString.Proofs.Destinations
import ActionString.Proofs.Named

/-!
# Completing the name of a world

In front of a location the name of a world may come, which takes all but a number with a sign or a
digit at its beginning. So where a location is looked for right behind such a name, what begins the
location is more of the name, and where no name is read, what completes a location does not become
one.
-/

namespace ActionString.Grammar

open Rule Word

variable {before after name rest : List Char} {item : Expected}

/-! ### Beginnings of numbers -/

/-- What begins with no digit does not change whether a digit comes in front of it. -/
theorem digitNext_append (digit : digitNext rest = false) (text : List Char) :
    digitNext (text ++ rest) = digitNext text := by
  cases text with
  | nil => exact digit
  | cons c text => rfl

/-- What begins no number does not change whether a number comes in front of it. -/
theorem numberNext_append (number : numberNext rest = false) (text : List Char) :
    numberNext (text ++ rest) = numberNext text := by
  have digit : digitNext rest = false := (Bool.or_eq_false_iff.mp number).1
  cases text with
  | nil => exact number
  | cons c text =>
    cases text with
    | nil =>
      simp only [numberNext, List.singleton_append, List.tail_cons, digit]
      rfl
    | cons d text => rfl

/-- What begins no number does not change whether a number with a sign comes in front of it. -/
theorem signedNext_append (number : numberNext rest = false) (signed : signedNext rest = false)
    (text : List Char) : signedNext (text ++ rest) = signedNext text := by
  cases text with
  | nil => exact signed
  | cons c text =>
    have tail := numberNext_append number text
    simp only [signedNext, List.cons_append, List.tail_cons, tail]
    rfl

/-- A number with a sign that only a digit at the end completes is a sign, perhaps with a point. -/
theorem mem_of_signedNext {text : List Char} (nonempty : text ≠ [])
    (unsigned : signedNext text = false) (signed : signedNext (text ++ ['0']) = true) :
    text ∈ ["+".toList, "-".toList, "+.".toList, "-.".toList] := by
  obtain ⟨c, rest, rfl⟩ := List.exists_cons_of_ne_nil nonempty
  obtain ⟨mark, number⟩ := Bool.and_eq_true_iff.mp signed
  have sign : c = '+' ∨ c = '-' := by simpa [CharClass.accepts] using mark
  have none : numberNext rest = false := by
    rw [signedNext, show (c :: rest).head?.any CharClass.sign.accepts = true from mark] at unsigned
    exact unsigned
  have point : rest = [] ∨ rest = ['.'] := by
    cases rest with
    | nil => exact .inl rfl
    | cons d others =>
      cases others with
      | cons e others =>
        have same : numberNext (d :: e :: others) = true := number
        rw [none] at same
        cases same
      | nil =>
        have digit : CharClass.digit.accepts d = false := (Bool.or_eq_false_iff.mp none).1
        have fraction := (Bool.or_eq_true_iff.mp number).resolve_left (by simp [digitNext, digit])
        have dot : d = '.' := by simpa using (Bool.and_eq_true_iff.mp fraction).1
        exact .inr (by rw [dot])
  obtain rfl | rfl := sign <;> obtain rfl | rfl := point <;> decide

/-- What a name of a world does not go on with begins no number. -/
theorem next_of_refused (refused : ∀ c ∈ rest.head?, CharClass.worldName.accepts c = false) :
    digitNext rest = false ∧ numberNext rest = false ∧ signedNext rest = false := by
  cases rest with
  | nil => exact ⟨rfl, rfl, rfl⟩
  | cons c rest =>
    have other : CharClass.worldName.accepts c = false := refused c rfl
    have kinds : ∀ d ∈ [';', ',', ' ', '\x22'], CharClass.digit.accepts d = false ∧ d ≠ '.' ∧
        CharClass.sign.accepts d = false := by decide
    have known : c ∈ [';', ',', ' ', '\x22'] := by
      simp only [CharClass.accepts, ne_eq, decide_not, Bool.and_eq_false_iff, Bool.not_eq_false',
        decide_eq_true_eq] at other
      obtain ((rfl | rfl) | rfl) | rfl := other <;> decide
    obtain ⟨digit, point, sign⟩ := kinds c known
    simp [digitNext, numberNext, signedNext, digit, point, sign]

/-! ### Names of worlds -/

/-- A text that is read as the name of a world in front of what is no part of such a name. -/
structure IsWorld (name : List Char) : Prop where
  nonempty : name ≠ []
  made : ∀ c ∈ name, CharClass.worldName.accepts c = true
  solid : ∀ c ∈ name.head?, isSpace c = false
  digit : digitNext name = false
  signed : signedNext name = false

/-- The name of a world is read behind spaces. -/
theorem IsWorld.leftBy_worldName (world : IsWorld name) {gap : List Char} (spaces : blank gap = true)
    (refused : ∀ c ∈ rest.head?, CharClass.worldName.accepts c = false) :
    leftBy worldName (gap ++ (name ++ rest)) = rest := by
  obtain ⟨digit, number, signed⟩ := next_of_refused refused
  have stripped : strip (gap ++ (name ++ rest)) = name ++ rest := by
    obtain ⟨c, others, rfl⟩ := List.exists_cons_of_ne_nil world.nonempty
    rw [strip_append_of_blank spaces]
    exact strip_cons_of_not (world.solid c rfl) _
  have found : (worldName (name ++ rest)).result = some (name, rest) := by
    rw [result_worldName, digitNext_append digit, signedNext_append number signed, world.digit,
      world.signed, result_chars world.nonempty world.made refused]
    rfl
  rw [leftBy, stripped, found]
  rfl

/-- What is read as the name of a world is one, and no part of such a name comes behind it. -/
theorem exists_isWorld {text value : List Char}
    (found : (worldName (strip text)).result = some (value, rest)) :
    ∃ gap name, text = gap ++ (name ++ rest) ∧ blank gap = true ∧ IsWorld name ∧
      ∀ c ∈ rest.head?, CharClass.worldName.accepts c = false := by
  obtain ⟨gap, cut, spaces, -⟩ := exists_dropWhile_eq isSpace text
  change text = gap ++ strip text at cut
  rw [result_worldName] at found
  split at found
  · cases found
  · rename_i next
    rw [Bool.not_eq_true, Bool.or_eq_false_iff] at next
    obtain ⟨whole, nonempty, made, refused⟩ := of_result_chars found
    obtain ⟨digit, number, signed⟩ := next_of_refused refused
    rw [whole, digitNext_append digit, signedNext_append number signed] at next
    refine ⟨gap, value, by rw [← whole, ← cut], List.all_eq_true.mpr spaces, ?_, refused⟩
    refine ⟨nonempty, made, fun c front => ?_, next.1, next.2⟩
    obtain ⟨others, rfl⟩ := List.head?_eq_some_iff.mp front
    exact isSpace_of_strip whole

/-- A name of a world may go on with what begins no number. -/
theorem IsWorld.append (world : IsWorld name) {more : List Char}
    (made : ∀ c ∈ more, CharClass.worldName.accepts c = true)
    (signed : signedNext (name ++ more) = false) : IsWorld (name ++ more) where
  nonempty := by simp [world.nonempty]
  made := List.forall_mem_append.mpr ⟨world.made, made⟩
  solid := by
    obtain ⟨c, others, rfl⟩ := List.exists_cons_of_ne_nil world.nonempty
    exact world.solid
  digit := by
    obtain ⟨c, others, rfl⟩ := List.exists_cons_of_ne_nil world.nonempty
    exact world.digit
  signed := signed

/-! ### Teleporting -/

/-- What is read behind the word for teleporting: the name of a world and a location, if they
come. -/
def journey : Rule Phrase := do
  let world ← spacedOptional (make id worldName)
  let location ← spacedOptional location
  return .teleport world location

/-- What is left of a text when the name of a world and a location may be read. -/
def remaining (text : List Char) : List Char := leftBy location (leftBy worldName text)

/-- What comes behind the word for teleporting is always read. -/
theorem exists_journey (text : List Char) :
    ∃ value, (journey text).result = some (value, remaining text) := by
  obtain ⟨world, first⟩ := exists_spacedOptional (make id worldName) text
  rw [leftBy_make] at first
  obtain ⟨place, second⟩ := exists_spacedOptional location (leftBy worldName text)
  exact ⟨_, by rw [journey, result_bind_of_some first, result_bind_of_some second]; rfl⟩

/-- An item completes what is read behind the word for teleporting. -/
def Arrives (before : List Char) (item : Expected) : Prop :=
  ∃ more, item.Opens more ∧ blank (remaining (before ++ more)) = true

/-- What completes a location completes it behind the name of a world and a space. -/
theorem Arrives.of_world {gap middle : List Char} (world : IsWorld name) (spaces : blank gap = true)
    (some : middle ≠ [])
    (refused : ∀ c ∈ (middle ++ after).head?, CharClass.worldName.accepts c = false)
    (completes : Completes (spaced location) middle item) :
    Arrives (gap ++ (name ++ middle)) item := by
  obtain ⟨more, value, rest, opens, found, ended⟩ := completes
  rw [spaced_eq] at found
  refine ⟨more, opens, ?_⟩
  have left : leftBy worldName (gap ++ (name ++ (middle ++ more))) = middle ++ more := by
    refine world.leftBy_worldName spaces ?_
    obtain ⟨c, others, rfl⟩ := List.exists_cons_of_ne_nil some
    exact refused
  rw [List.append_assoc, List.append_assoc, remaining, left, leftBy, found]
  exact ended

/-- What completes a location completes it where no name of a world is read. -/
theorem Arrives.of_nowhere {gap middle : List Char} (spaces : blank gap = true) (some : middle ≠ [])
    (nowhere : (worldName (middle ++ after)).result = none)
    (completes : Completes location middle item) : Arrives (gap ++ middle) item := by
  obtain ⟨more, value, rest, opens, found, ended⟩ := completes
  have next := next_of_location found
  have stripped : strip (gap ++ (middle ++ more)) = middle ++ more := by
    rw [strip_append_of_blank spaces, strip_of_location (by rw [found]; rfl)]
  have still : (worldName (middle ++ more)).result = none := by
    obtain ⟨c, others, rfl⟩ := List.exists_cons_of_ne_nil some
    rw [result_worldName, if_pos]
    rw [Bool.or_eq_true] at next ⊢
    refine next.imp_left fun number => (Bool.or_eq_true_iff.mp number).resolve_right fun fraction => ?_
    -- What begins with a point would have been read as a name.
    have point : c = '.' := by simpa using (Bool.and_eq_true_iff.mp fraction).1
    subst point
    have found := isSome_chars .worldName ('.' :: others ++ after)
    rw [result_worldName, if_neg (by simp [digitNext, signedNext, CharClass.accepts])] at nowhere
    rw [nowhere] at found
    cases found
  refine ⟨more, opens, ?_⟩
  have left : leftBy worldName (gap ++ (middle ++ more)) = gap ++ (middle ++ more) := by
    rw [leftBy, stripped, still]
    rfl
  rw [List.append_assoc, remaining, left, leftBy, stripped, found]
  exact ended

/-- What a sequence misses at its beginning is missed by its first rule, if that reads something. -/
theorem Misses.bind_nil {α β : Type} {rule : Rule α} [Built rule] [Consuming rule]
    {next : α → Rule β} [∀ value, Built (next value)] (misses : Misses (rule >>= next) [] after item) :
    Misses rule [] after item := by
  refine misses.bind.resolve_right fun ⟨value, front, middle, same, read, _⟩ => ?_
  obtain ⟨rfl, rfl⟩ := List.append_eq_nil_iff.mp same.symm
  exact absurd (Consuming.shorter read) (Nat.lt_irrefl _)

/-- What is missed where a location should begin. -/
theorem Misses.location_nil (misses : Misses location [] after item) :
    item ∈ [.charClass CharClass.sign.description, .literal ".",
      .charClass CharClass.digit.description] := by
  rw [location_eq] at misses
  obtain absolute | ⟨-, others⟩ := misses.bind_nil.cons
  · obtain ⟨-, rfl⟩ | ⟨⟨digits, -, same⟩, -⟩ | ⟨-, rfl⟩ := absolute.bind_nil.number
    · simp
    · simp at same
    · simp
  · obtain relative | ⟨-, none⟩ := others.cons
    · obtain ⟨-, rfl⟩ := relative.bind_nil.bind_nil.oneOf
      exact .head _
    · exact absurd none Misses.not_nil

/-- Nothing is left behind the name of a world at the end. -/
theorem IsWorld.remaining_eq (world : IsWorld name) {gap : List Char} (spaces : blank gap = true) :
    remaining (gap ++ name) = [] := by
  have left : leftBy worldName (gap ++ (name ++ [])) = [] :=
    world.leftBy_worldName spaces (by simp)
  rw [List.append_nil] at left
  rw [remaining, left]
  rfl

/-- Where a location should begin, it or the name of a world can come. -/
theorem Arrives.of_gap {gap : List Char} (spaces : blank gap = true)
    (begins : item ∈ [.charClass CharClass.sign.description, .literal ".",
      .charClass CharClass.digit.description]) : Arrives gap item := by
  have world {c : Char} (known : c ∈ ['+', '.']) : blank (remaining (gap ++ [c])) = true := by
    have each : ∀ c ∈ ['+', '.'], CharClass.worldName.accepts c = true ∧ isSpace c = false ∧
        digitNext [c] = false ∧ signedNext [c] = false := by decide
    obtain ⟨made, solid, digit, signed⟩ := each c known
    have isWorld : IsWorld [c] := ⟨by simp, by simpa using made, by simpa using solid, digit, signed⟩
    rw [isWorld.remaining_eq spaces]
    rfl
  simp only [List.mem_cons, List.not_mem_nil, or_false] at begins
  obtain rfl | rfl | rfl := begins
  · exact ⟨['+'], ⟨.sign, rfl, '+', rfl, by decide⟩, world (by simp)⟩
  · exact ⟨['.'], List.prefix_refl _, world (by simp)⟩
  · have stripped : strip (gap ++ "0N 0E".toList) = "0N 0E".toList := strip_append_of_blank spaces _
    refine ⟨"0N 0E".toList, ⟨.digit, rfl, '0', rfl, by decide⟩, ?_⟩
    have left : leftBy worldName (gap ++ "0N 0E".toList) = gap ++ "0N 0E".toList := by
      rw [leftBy, stripped]
      rfl
    rw [remaining, left, leftBy, stripped]
    rfl

/-- Behind the name of a world, more of it or a location can come. -/
theorem Arrives.of_name {gap : List Char} (world : IsWorld name) (spaces : blank gap = true)
    (begins : item ∈ [.charClass CharClass.sign.description, .literal ".",
      .charClass CharClass.digit.description]) : Arrives (gap ++ name) item := by
  have longer {more : List Char} (made : ∀ c ∈ more, CharClass.worldName.accepts c = true)
      (signed : signedNext (name ++ more) = false) :
      blank (remaining (gap ++ name ++ more)) = true := by
    rw [List.append_assoc, (world.append made signed).remaining_eq spaces]
    rfl
  simp only [List.mem_cons, List.not_mem_nil, or_false] at begins
  obtain rfl | rfl | rfl := begins
  · refine ⟨['+'], ⟨.sign, rfl, '+', rfl, by decide⟩, longer (by decide) ?_⟩
    rw [signedNext_append (by decide) (by decide), world.signed]
  · refine ⟨['.'], List.prefix_refl _, longer (by decide) ?_⟩
    rw [signedNext_append (by decide) (by decide), world.signed]
  · cases signed : signedNext (name ++ ['0']) with
    | false =>
      exact ⟨['0'], opens_number.2.2, longer (by decide) signed⟩
    | true =>
      -- A sign alone, or with a point, begins a location with the digit.
      have short : name ∈ ["+".toList, "-".toList, "+.".toList, "-.".toList] :=
        mem_of_signedNext world.nonempty world.signed signed
      have each : ∀ name ∈ ["+".toList, "-".toList, "+.".toList, "-.".toList],
          (worldName (name ++ "0 +0".toList)).result = none ∧
            (location (name ++ "0 +0".toList)).result.map Prod.snd = some [] := by decide +kernel
      obtain ⟨nowhere, located⟩ := each name short
      obtain ⟨⟨value, rest⟩, found, rfl⟩ := Option.map_eq_some_iff.mp located
      exact Arrives.of_nowhere spaces world.nonempty nowhere
        ⟨"0 +0".toList, value, [], ⟨.digit, rfl, '0', rfl, by decide⟩, found, rfl⟩

/-- What the name of a world misses is a character of such a name, at its beginning. -/
theorem Misses.worldName (misses : Misses Grammar.worldName before after item) :
    before = [] ∧ item = .charClass CharClass.worldName.description := by
  obtain ahead | ⟨_, first, middle, whole, read, later⟩ := misses.bind
  · exact absurd ahead Misses.not_notAhead
  have none := eq_of_notAhead read
  obtain ahead | ⟨_, second, inner, same, read, name⟩ := later.bind
  · exact absurd ahead Misses.not_notAhead
  have nothing := eq_of_notAhead read
  obtain ⟨rfl, rfl⟩ := name.chars
  exact ⟨List.self_eq_append_left.mp (nothing.trans none), rfl⟩

/-- Where nothing is read behind the word for teleporting but the name of a world, the end can
come. -/
theorem Arrives.of_end {gap : List Char} (world : IsWorld name) (spaces : blank gap = true)
    {last : List Char} (ended : blank last = true)
    (refused : ∀ c ∈ last.head?, CharClass.worldName.accepts c = false) :
    Arrives (gap ++ (name ++ last)) .endOfInput := by
  have left : leftBy location last = last := by
    rw [leftBy, strip_eq_nil_iff.mpr ended]
    rfl
  refine ⟨[], rfl, ?_⟩
  rw [List.append_nil, remaining, world.leftBy_worldName spaces refused, left]
  exact ended

/-- Spaces are left by the rules behind the word for teleporting. -/
theorem Arrives.of_blank (spaces : blank before = true) : Arrives before .endOfInput := by
  have left : remaining before = before := by
    have world : leftBy worldName before = before := by
      rw [leftBy, strip_eq_nil_iff.mpr spaces]
      rfl
    rw [remaining, world, leftBy, strip_eq_nil_iff.mpr spaces]
    rfl
  exact ⟨[], rfl, by rwa [List.append_nil, left]⟩

/-- What completes a location behind the name of a world, or without one, completes what is read
behind the word for teleporting. -/
theorem Arrives.of_left {before after : List Char} (gap middle : List Char)
    (left : leftBy worldName (before ++ after) = gap ++ (middle ++ after))
    (stripped : strip (gap ++ (middle ++ after)) = middle ++ after)
    (looked : Completes location middle item ∧
        (middle = [] → item ∈ [.charClass CharClass.sign.description, .literal ".",
          .charClass CharClass.digit.description]) ∨
      middle = [] ∧ item = .endOfInput) : Arrives before item := by
  have spaces := blank_of_strip_append stripped
  cases found : (worldName (strip (before ++ after))).result with
  | some pair =>
    obtain ⟨value, rest⟩ := pair
    obtain ⟨first, name, whole, blanks, world, refused⟩ := exists_isWorld found
    obtain rfl : rest = gap ++ (middle ++ after) := by
      rw [← left, whole, world.leftBy_worldName blanks refused]
    simp only [← List.append_assoc] at whole
    obtain rfl := List.append_cancel_right whole
    by_cases none : gap ++ middle = []
    · obtain ⟨rfl, rfl⟩ := List.append_eq_nil_iff.mp none
      simp only [List.append_nil]
      obtain ⟨-, begins⟩ | ⟨-, rfl⟩ := looked
      · exact .of_name world blanks (begins rfl)
      · have ended := Arrives.of_end world blanks blank_nil (by simp)
        rwa [List.append_nil] at ended
    rw [← List.append_assoc] at refused
    simp only [List.append_assoc]
    obtain ⟨completes, -⟩ | ⟨rfl, rfl⟩ := looked
    · exact .of_world world blanks none refused (completes.spaced_location spaces)
    · rw [List.append_nil] at none refused ⊢
      refine .of_end world blanks spaces ?_
      obtain ⟨c, others, rfl⟩ := List.exists_cons_of_ne_nil none
      exact refused
  | none =>
    have all : leftBy worldName (before ++ after) = before ++ after := by
      rw [leftBy, found]
      rfl
    rw [all, ← List.append_assoc] at left
    obtain rfl := List.append_cancel_right left
    rw [List.append_assoc, stripped] at found
    obtain ⟨completes, begins⟩ | ⟨rfl, rfl⟩ := looked
    · by_cases none : middle = []
      · subst none
        rw [List.append_nil]
        exact .of_gap spaces (begins rfl)
      · exact .of_nowhere spaces none found completes
    · rw [List.append_nil]
      exact .of_blank spaces

/-- What is missed in the name of a world or in a location completes the journey. -/
theorem Arrives.of_misses {before after : List Char} {item : Expected}
    (misses : Misses journey before after item) : Arrives before item := by
  obtain world | ⟨world, front, middle, rfl, read, later⟩ := misses.bind
  · obtain ⟨gap, middle, rfl, stripped, missed⟩ := world.spacedOptional
    obtain ⟨rfl, rfl⟩ := missed.make.worldName
    rw [List.append_nil] at stripped ⊢
    have solid : ∀ c ∈ ['a'].head?, isSpace c = false := by
      rintro _ ⟨⟩
      rfl
    have isWorld : IsWorld ['a'] := ⟨by simp, by decide, solid, by decide, by decide⟩
    refine ⟨['a'], ⟨.worldName, rfl, 'a', rfl, isWorld.made 'a' (.head _)⟩, ?_⟩
    rw [isWorld.remaining_eq (blank_of_strip_append stripped)]
    rfl
  · obtain ⟨value, same⟩ := exists_spacedOptional (make id worldName) (front ++ middle ++ after)
    rw [read, leftBy_make] at same
    have place : Misses (spacedOptional location) middle after item := later.map
    obtain ⟨gap, middle, rfl, stripped, missed⟩ := place.spacedOptional
    rw [List.append_assoc] at stripped
    refine .of_left gap middle ?_ stripped
      (.inl ⟨completes_of_misses_location missed, ?_⟩)
    · rw [← List.append_assoc gap]
      exact (Prod.mk.inj (Option.some.inj same)).2.symm
    · rintro rfl
      exact missed.location_nil

/-- What a journey leaves begins where the text before it is complete. -/
theorem Arrives.of_remaining {before after : List Char}
    (left : after = strip (remaining (before ++ after))) : Arrives before .endOfInput := by
  obtain ⟨gap, cut, -, -⟩ := exists_dropWhile_eq isSpace (leftBy worldName (before ++ after))
  change _ = gap ++ strip (leftBy worldName (before ++ after)) at cut
  cases read : (location (strip (leftBy worldName (before ++ after)))).result with
  | none =>
    rw [remaining, leftBy, read] at left
    change after = strip (leftBy worldName (before ++ after)) at left
    rw [← left] at cut
    refine .of_left gap [] cut ?_ (.inr ⟨rfl, rfl⟩)
    rw [List.nil_append, ← cut, ← left]
  | some pair =>
    obtain ⟨place, last⟩ := pair
    rw [remaining, leftBy, read] at left
    change after = strip last at left
    have inner := (strip_suffix last).trans (Forward.suffix read)
    rw [← left] at inner
    obtain ⟨middle, whole⟩ := inner
    rw [← whole] at cut read
    refine .of_left gap middle cut ?_
      (.inl ⟨completes_of_location read left, ?_⟩)
    · rw [← cut, whole]
    · rintro rfl
      have shorter := Consuming.shorter read
      have within := (strip_suffix last).length_le
      rw [← left] at within
      exact absurd shorter (Nat.not_lt_of_le within)

/-- The command that teleports completes texts. -/
theorem resumes_teleport : Resumes (phraseOf .teleport) := by
  refine .keyword (by decide) fun _ => ?_
  change Resumes journey
  intro before after value rest item found _ _ looked
  have arrives : Arrives before item := by
    obtain misses | ⟨rfl, left⟩ := looked
    · exact .of_misses misses
    · obtain ⟨_, same⟩ := exists_journey (before ++ after)
      rw [found] at same
      obtain rfl : rest = remaining (before ++ after) := (Prod.mk.inj (Option.some.inj same)).2
      exact .of_remaining left
  obtain ⟨more, opens, ended⟩ := arrives
  obtain ⟨value, found⟩ := exists_journey (before ++ more)
  exact ⟨more, value, _, opens, found, ended⟩

end ActionString.Grammar
