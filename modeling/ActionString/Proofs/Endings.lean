import ActionString.Proofs.Completion
import ActionString.Proofs.Numerals

/-!
# How words end

What a rule takes of a text behind what it has read depends on how that ends: a fixed text takes
nothing more, a word of a class takes what more of the class comes, and the whole part of a number
also takes a point with digits behind it. So what is read in front of one text is read in front of
any other, but for what is taken of it. And what a rule misses, it reads when it is there.
-/

namespace ActionString.Grammar

open Rule Word

variable {α β : Type}

/-- How a word ends: with characters that may go on, or with the whole part of a number. -/
inductive Ending where
  | run (accepts : Char → Bool)
  | whole

/-- A point with a digit after it comes next. -/
def fractionNext (text : List Char) : Bool :=
  text.head? = some '.' && digitNext text.tail

/-- What a word leaves of the text behind it, when it ends so. -/
def Ending.left : Ending → List Char → List Char
  | run accepts, text => text.dropWhile accepts
  | whole, text =>
    let rest := text.dropWhile CharClass.digit.accepts
    if fractionNext rest then rest.tail.dropWhile CharClass.digit.accepts else rest

/-- The ending of a word that does not go on. -/
abbrev Ending.closed : Ending := .run fun _ => false

/-- The ending of a word that goes on with digits. -/
abbrev Ending.digits : Ending := .run CharClass.digit.accepts

@[simp] theorem Ending.left_closed (text : List Char) : closed.left text = text := by
  cases text <;> rfl

@[simp] theorem Ending.left_nil (ending : Ending) : ending.left [] = [] := by
  cases ending <;> rfl

/-- A run leaves what begins with another character. -/
theorem Ending.left_run_eq_iff {accepts : Char → Bool} {text : List Char} :
    (run accepts).left text = text ↔ text.head?.any accepts = false := by
  cases text with
  | nil => simp
  | cons c rest =>
    cases accepted : accepts c with
    | false => simp [left, accepted]
    | true =>
      have shorter := (List.dropWhile_suffix (l := rest) accepts).length_le
      refine iff_of_false (fun same => ?_) (by simp [accepted])
      have lengths := congrArg List.length same
      rw [left, List.dropWhile_cons_of_pos accepted, List.length_cons] at lengths
      omega

/-- The whole part of a number leaves what begins with no number. -/
theorem Ending.left_whole_eq_iff {text : List Char} :
    whole.left text = text ↔ numberNext text = false := by
  cases text with
  | nil => exact iff_of_true rfl rfl
  | cons c rest =>
    have within : (whole.left (c :: rest)).length ≤
        ((c :: rest).dropWhile CharClass.digit.accepts).length := by
      rw [left]
      split
      · exact ((List.dropWhile_suffix _).trans (List.tail_suffix _)).length_le
      · exact Nat.le_refl _
    cases digit : CharClass.digit.accepts c with
    | true =>
      have shorter := (List.dropWhile_suffix (l := rest) CharClass.digit.accepts).length_le
      refine iff_of_false (fun same => ?_) (by simp [numberNext, digitNext, digit])
      rw [List.dropWhile_cons_of_pos digit, same, List.length_cons] at within
      omega
    | false =>
      have next : numberNext (c :: rest) = fractionNext (c :: rest) := by
        simp [numberNext, fractionNext, digitNext, digit]
      rw [left, List.dropWhile_cons_of_neg (by simp [digit]), next]
      cases fractionNext (c :: rest) with
      | false => simp
      | true =>
        have shorter := (List.dropWhile_suffix (l := rest) CharClass.digit.accepts).length_le
        refine iff_of_false (fun same => ?_) Bool.noConfusion
        have lengths := congrArg List.length same
        rw [if_pos rfl, List.tail_cons, List.length_cons] at lengths
        omega

/-- Where a word leaves a text, it leaves every text with the same front, unless that is a point,
which may go on with a digit. -/
theorem Ending.left_append {ending : Ending} {front after : List Char} (nonempty : front ≠ [])
    (point : front ≠ ['.']) (kept : ending.left (front ++ after) = front ++ after)
    (more : List Char) : ending.left (front ++ more) = front ++ more := by
  obtain ⟨c, rest, rfl⟩ := List.exists_cons_of_ne_nil nonempty
  cases ending with
  | run accepts =>
    rw [left_run_eq_iff] at kept ⊢
    exact kept
  | whole =>
    have next := left_whole_eq_iff.mp kept
    rw [left_whole_eq_iff]
    cases rest with
    | nil =>
      have other : c ≠ '.' := fun same => point (by rw [same])
      simpa [numberNext, digitNext, other] using next
    | cons d rest => exact next

/-- A rule reads in front of any text what it has read in front of one, but for what is taken of
that text, and it reads what it has missed when that is there. -/
structure Resumable (endings : List Ending) (rule : Rule α) : Prop where
  reads ⦃front rest : List Char⦄ ⦃value : α⦄ :
    (rule (front ++ rest)).result = some (value, rest) →
      ∃ ending ∈ endings, ending.left rest = rest ∧ ∀ more, ∃ other,
        (rule (front ++ more)).result = some (other, ending.left more) ∧
          (ending.left more = more → other = value)
  misses ⦃before after : List Char⦄ ⦃item : Expected⦄ : Misses rule before after item →
    ∃ more value, more ≠ [] ∧ item.Opens more ∧ (rule (before ++ more)).result = some (value, [])
  full : ∃ text value, (rule text).result = some (value, [])

/-- A longer text begins with what the front of it begins with. -/
theorem opens_append {more : List Char} {item : Expected} (opens : item.Opens more)
    (some : more ≠ []) (tail : List Char) : item.Opens (more ++ tail) := by
  cases item with
  | literal word => exact List.IsPrefix.trans opens (List.prefix_append more tail)
  | charClass description =>
    obtain ⟨kind, same, c, front, accepted⟩ := opens
    obtain ⟨rest, rfl⟩ := List.head?_eq_some_iff.mp front
    exact ⟨kind, same, c, rfl, accepted⟩
  | endOfInput => exact absurd opens some

namespace Resumable

variable {endings others : List Ending}

theorem mono {rule : Rule α} (resumable : Resumable endings rule) (part : endings ⊆ others) :
    Resumable others rule where
  reads front rest value found := by
    obtain ⟨ending, member, kept⟩ := resumable.reads found
    exact ⟨ending, part member, kept⟩
  misses := resumable.misses
  full := resumable.full

theorem literal {word : String} (some : word.toList ≠ []) :
    Resumable [.closed] (Rule.literal word) where
  reads front rest value found := by
    obtain ⟨rfl, whole⟩ := eq_append_of_result_literal found
    rw [List.append_cancel_right whole]
    exact ⟨.closed, .head _, Ending.left_closed rest, fun more =>
      ⟨_, by rw [Ending.left_closed]; exact result_literal word more, fun _ => rfl⟩⟩
  misses before after item misses := by
    obtain ⟨rfl, rfl⟩ := misses.literal
    exact ⟨word.toList, _, some, List.prefix_refl _,
      by simpa using result_literal word []⟩
  full := ⟨word.toList, _, by simpa using result_literal word []⟩

theorem keyword {word : String} (some : word.toList ≠ []) :
    Resumable [.closed] (Rule.keyword word) where
  reads front rest value found := by
    have spelling := stripFolded_of_result_keyword found
    have whole := Text.eq_append_of_stripFolded spelling
    have same := Text.map_toLower_of_stripFolded spelling
    rw [List.append_cancel_right whole]
    exact ⟨.closed, .head _, Ending.left_closed rest, fun more =>
      ⟨_, by rw [Ending.left_closed]; exact result_keyword_of_same same more, fun _ => rfl⟩⟩
  misses before after item misses := by
    obtain ⟨rfl, rfl⟩ := misses.keyword
    exact ⟨word.toList, _, some, List.prefix_refl _, by
      simpa using result_keyword_of_same rfl []⟩
  full := ⟨word.toList, _, by simpa using result_keyword_of_same rfl []⟩

/-- A word of a class goes on with what comes of the class. -/
theorem result_chars_append {kind : CharClass} {front : List Char} (nonempty : front ≠ [])
    (accepted : ∀ c ∈ front, kind.accepts c = true) (more : List Char) :
    (Rule.chars kind (front ++ more)).result =
      some (front ++ more.takeWhile kind.accepts, more.dropWhile kind.accepts) := by
  have refused : ∀ c ∈ (more.dropWhile kind.accepts).head?, kind.accepts c = false := by
    intro c front
    have stop := List.head?_dropWhile_not kind.accepts more
    rw [front] at stop
    exact stop
  have made : ∀ c ∈ front ++ more.takeWhile kind.accepts, kind.accepts c = true :=
    List.forall_mem_append.mpr ⟨accepted, fun c member => List.mem_takeWhile_imp member⟩
  have found := result_chars (by simp [nonempty]) made refused
  rwa [List.append_assoc, List.takeWhile_append_dropWhile] at found

theorem chars {kind : CharClass} {c : Char} (accepted : kind.accepts c = true) :
    Resumable [.run kind.accepts] (Rule.chars kind) where
  reads front rest value found := by
    obtain ⟨whole, nonempty, made, refused⟩ := of_result_chars found
    rw [List.append_cancel_right whole]
    refine ⟨.run kind.accepts, .head _, ?_, fun more =>
      ⟨_, result_chars_append nonempty made more, fun kept => ?_⟩⟩
    · exact (@span_append _ [] _ (by simp) refused).2
    · have whole := List.takeWhile_append_dropWhile (p := kind.accepts) (l := more)
      rw [show more.dropWhile kind.accepts = more from kept, List.append_left_eq_self] at whole
      rw [whole, List.append_nil]
  misses before after item misses := by
    obtain ⟨rfl, rfl⟩ := misses.chars
    refine ⟨[c], [c], List.cons_ne_nil _ _, ⟨kind, rfl, c, rfl, accepted⟩, ?_⟩
    simpa using @result_chars kind [c] [] (List.cons_ne_nil c [])
      (List.forall_mem_singleton.mpr accepted) (by simp)
  full := ⟨[c], [c], by
    simpa using @result_chars kind [c] [] (List.cons_ne_nil c [])
      (List.forall_mem_singleton.mpr accepted) (by simp)⟩

theorem oneOf {kind : CharClass} {c : Char} (accepted : kind.accepts c = true) :
    Resumable [.closed] (Rule.oneOf kind) where
  reads front rest value found := by
    rw [result_oneOf] at found
    split at found
    · cases text : front ++ rest with
      | nil => simp [text] at found
      | cons d tail =>
        rw [text] at found
        cases found
        have front_eq : front = [value] := List.append_cancel_right (text.trans (by simp))
        subst front_eq
        refine ⟨.closed, .head _, Ending.left_closed _, fun more => ⟨value, ?_, fun _ => rfl⟩⟩
        rename_i accepted
        rw [text] at accepted
        simp only [List.head?_cons, Option.any_some] at accepted
        simp [result_oneOf, accepted]
    · cases found
  misses before after item misses := by
    obtain ⟨rfl, rfl⟩ := misses.oneOf
    refine ⟨[c], c, List.cons_ne_nil _ _, ⟨kind, rfl, c, rfl, accepted⟩, ?_⟩
    simp [result_oneOf, accepted]
  full := ⟨[c], c, by simp [result_oneOf, accepted]⟩

theorem spaces : Resumable [.run isSpace] Rule.spaces where
  reads front rest value found := by
    have left : strip (front ++ rest) = rest := by simpa using found
    have whole := List.takeWhile_append_dropWhile (p := isSpace) (l := front ++ rest)
    change _ ++ strip (front ++ rest) = _ at whole
    rw [left] at whole
    have blanks : ∀ c ∈ front, isSpace c = true := by
      rw [← List.append_cancel_right whole]
      exact fun c member => List.mem_takeWhile_imp member
    refine ⟨.run isSpace, .head _, ?_, fun more => ⟨(), ?_, fun _ => rfl⟩⟩
    · change strip rest = rest
      rw [← left, strip_strip]
    · rw [result_spaces, strip, List.dropWhile_append_of_pos blanks]
      rfl
  misses before after item misses := by
    obtain first | ⟨_, _, _, _, _, later⟩ := misses.bind
    · exact absurd first Misses.not_run
    · exact absurd later Misses.not_pure
  full := ⟨[], (), rfl⟩

theorem map {rule : Rule α} [Built rule] (change : α → β) (resumable : Resumable endings rule) :
    Resumable endings (rule >>= fun value => pure (change value)) where
  reads front rest last found := by
    rw [result_bind, Option.bind_eq_some_iff] at found
    obtain ⟨⟨value, left⟩, read, same⟩ := found
    cases same
    obtain ⟨ending, member, kept, again⟩ := resumable.reads read
    refine ⟨ending, member, kept, fun more => ?_⟩
    obtain ⟨other, found, same⟩ := again more
    exact ⟨change other, by rw [result_bind_of_some found]; rfl, fun kept => by rw [same kept]⟩
  misses before after item misses := by
    obtain ⟨more, value, some, opens, found⟩ := resumable.misses misses.map
    exact ⟨more, change value, some, opens, by rw [result_bind_of_some found]; rfl⟩
  full := by
    obtain ⟨text, value, found⟩ := resumable.full
    exact ⟨text, change value, by rw [result_bind_of_some found]; rfl⟩

theorem make (use : String → α) {rule : Rule (List Char)} [Built rule]
    (resumable : Resumable endings rule) : Resumable endings (Word.make use rule) :=
  map _ resumable

/-- A sequence is read to the end of the second rule if the first takes nothing of what the second
reads. -/
theorem bind {rule : Rule α} [Built rule] {next : α → Rule β} [∀ value, Built (next value)]
    (first : Resumable endings rule) (second : ∀ value, Resumable others (next value))
    (apart : ∀ ending ∈ endings, ∀ value text, (next value text).result.isSome = true →
      ending.left text = text) : Resumable others (rule >>= next) where
  reads front rest last found := by
    rw [result_bind, Option.bind_eq_some_iff] at found
    obtain ⟨⟨value, left⟩, begun, read⟩ := found
    obtain ⟨start, middle, rfl, rfl⟩ :=
      exists_eq_append_of_suffix (Forward.suffix begun) (Forward.suffix read)
    rw [List.append_assoc] at begun
    obtain ⟨ending, member, -, again⟩ := first.reads begun
    obtain ⟨last, inside, kept, later⟩ := (second value).reads read
    refine ⟨last, inside, kept, fun more => ?_⟩
    obtain ⟨other, found, same⟩ := later more
    obtain ⟨value', begun', same'⟩ := again (middle ++ more)
    have whole := apart ending member value (middle ++ more) (by rw [found]; rfl)
    rw [whole, same' whole] at begun'
    exact ⟨other, by rw [List.append_assoc, result_bind_of_some begun', found], same⟩
  misses before after item misses := by
    obtain here | ⟨value, front, middle, rfl, begun, later⟩ := misses.bind
    · obtain ⟨more, value, some, opens, found⟩ := first.misses here
      obtain ⟨text, last, read⟩ := (second value).full
      obtain ⟨ending, member, -, again⟩ := first.reads
        (show (rule (before ++ more ++ [])).result = Option.some (value, []) by rwa [List.append_nil])
      obtain ⟨value', begun, same⟩ := again text
      have whole := apart ending member value text (by rw [read]; rfl)
      rw [whole, same whole, List.append_assoc] at begun
      exact ⟨more ++ text, last, by simp [some], opens_append opens some text,
        by rw [result_bind_of_some begun, read]⟩
    · rw [List.append_assoc] at begun
      obtain ⟨ending, member, -, again⟩ := first.reads begun
      obtain ⟨more, last, some, opens, read⟩ := (second value).misses later
      obtain ⟨value', begun, same⟩ := again (middle ++ more)
      have whole := apart ending member value (middle ++ more) (by rw [read]; rfl)
      rw [whole, same whole] at begun
      exact ⟨more, last, some, opens, by
        rw [List.append_assoc, result_bind_of_some begun, read]⟩
  full := by
    obtain ⟨front, value, begun⟩ := first.full
    obtain ⟨text, last, read⟩ := (second value).full
    obtain ⟨ending, member, -, again⟩ := first.reads
      (show (rule (front ++ [])).result = some (value, []) by rwa [List.append_nil])
    obtain ⟨value', begun, same⟩ := again text
    have whole := apart ending member value text (by rw [read]; rfl)
    rw [whole, same whole] at begun
    exact ⟨front ++ text, last, by rw [result_bind_of_some begun, read]⟩

/-- Behind a word that does not go on, the next rule reads as it does. -/
theorem bind_closed {rule : Rule α} [Built rule] {next : α → Rule β}
    [∀ value, Built (next value)] (first : Resumable [.closed] rule)
    (second : ∀ value, Resumable others (next value)) : Resumable others (rule >>= next) := by
  refine first.bind second fun ending member _ text _ => ?_
  rw [List.mem_singleton.mp member, Ending.left_closed]

/-- A choice of two rules that read no text in common reads as either does. -/
theorem cons {rule : Rule α} {rules : List (Rule α)} [Built rule]
    (first : Resumable endings rule) (second : Resumable others (firstOf rules))
    (apart : ∀ text, (firstOf rules text).result.isSome = true → (rule text).result = none) :
    Resumable (endings ++ others) (firstOf (rule :: rules)) where
  reads front rest value found := by
    rw [result_firstOf_cons, Option.or_eq_some_iff] at found
    obtain read | ⟨-, read⟩ := found
    · obtain ⟨ending, member, kept, again⟩ := first.reads read
      refine ⟨ending, List.mem_append_left _ member, kept, fun more => ?_⟩
      obtain ⟨other, found, same⟩ := again more
      exact ⟨other, by rw [result_firstOf_cons, found]; rfl, same⟩
    · obtain ⟨ending, member, kept, again⟩ := second.reads read
      refine ⟨ending, List.mem_append_right _ member, kept, fun more => ?_⟩
      obtain ⟨other, found, same⟩ := again more
      refine ⟨other, ?_, same⟩
      rw [result_firstOf_cons, apart _ (by rw [found]; rfl), Option.none_or, found]
  misses before after item misses := by
    obtain here | ⟨-, later⟩ := misses.cons
    · obtain ⟨more, value, some, opens, found⟩ := first.misses here
      exact ⟨more, value, some, opens, by rw [result_firstOf_cons, found]; rfl⟩
    · obtain ⟨more, value, some, opens, found⟩ := second.misses later
      refine ⟨more, value, some, opens, ?_⟩
      rw [result_firstOf_cons, apart _ (by rw [found]; rfl), Option.none_or, found]
  full := by
    obtain ⟨text, value, found⟩ := first.full
    exact ⟨text, value, by rw [result_firstOf_cons, found]; rfl⟩

theorem singleton {rule : Rule α} [Built rule] (resumable : Resumable endings rule) :
    Resumable endings (firstOf [rule]) where
  reads front rest value found := by
    rw [result_firstOf_cons, result_firstOf_nil, Option.or_none] at found
    obtain ⟨ending, member, kept, again⟩ := resumable.reads found
    refine ⟨ending, member, kept, fun more => ?_⟩
    rw [result_firstOf_cons, result_firstOf_nil, Option.or_none]
    exact again more
  misses before after item misses := by
    obtain here | ⟨-, later⟩ := misses.cons
    · obtain ⟨more, value, some, opens, found⟩ := resumable.misses here
      refine ⟨more, value, some, opens, ?_⟩
      rw [result_firstOf_cons, result_firstOf_nil, Option.or_none, found]
    · exact absurd later Misses.not_nil
  full := by
    obtain ⟨text, value, found⟩ := resumable.full
    exact ⟨text, value, by rw [result_firstOf_cons, found]; rfl⟩

/-- A choice of words that differ before they end is a word that does not go on. -/
theorem keywords (word : String) (words : List String) (nonempty : ∀ w ∈ word :: words, w.toList ≠ [])
    (differ : (word :: words).Pairwise Differ) :
    Resumable [.closed] (firstOf ((word :: words).map Rule.keyword)) := by
  induction words generalizing word with
  | nil => exact singleton (keyword (nonempty word (.head _)))
  | cons other words ih =>
    rw [List.forall_mem_cons] at nonempty
    rw [List.pairwise_cons] at differ
    refine (cons (keyword nonempty.1) (ih other nonempty.2 differ.2) fun text some => ?_).mono (by simp)
    obtain ⟨found, read⟩ := Option.isSome_iff_exists.mp some
    obtain ⟨next, member, read⟩ := exists_of_result_firstOf_map read
    have spelling : Text.stripFolded next.toList text = Option.some found :=
      stripFolded_of_result_keyword read
    rw [Text.eq_append_of_stripFolded spelling]
    exact result_keyword_of_differ (differ.1 next member)
      (Text.map_toLower_of_stripFolded spelling) _

end Resumable

/-! ### Numbers -/

/-- Only digits make up a text. -/
abbrev Digits (text : List Char) : Prop := ∀ c ∈ text, CharClass.digit.accepts c = true

/-- Digits are taken from a text as far as they go. -/
theorem result_run_of_digits {digits : List Char} (made : Digits digits) {rest : List Char}
    (other : digitNext rest = false) :
    (Rule.run CharClass.digit.accepts (digits ++ rest)).result = some (digits, rest) := by
  have refused : ∀ c ∈ rest.head?, CharClass.digit.accepts c = false := by
    intro c front
    rwa [digitNext, front] at other
  obtain ⟨taken, left⟩ := span_append made refused
  rw [Rule.run, taken, left]

/-- Digits behind a point go on with what digits come. -/
theorem result_number_of_point {digits fraction : List Char} (made : Digits digits)
    (nonempty : fraction ≠ []) (madeToo : Digits fraction) (more : List Char) :
    (number (digits ++ '.' :: (fraction ++ more))).result =
      some (digits ++ '.' :: (fraction ++ more.takeWhile CharClass.digit.accepts),
        more.dropWhile CharClass.digit.accepts) := by
  have point : (Rule.literal "." ('.' :: (fraction ++ more))).result = _ :=
    result_literal_self rfl _
  rw [number, result_firstOf_cons, pointed,
    result_bind_of_some (result_run_of_digits made rfl), result_bind_of_some point,
    integer, result_bind_of_some (Resumable.result_chars_append nonempty madeToo more)]
  simp

/-- Digits with a point are read where a point with a digit behind it comes after what digits there
are. -/
theorem isSome_pointed_append {digits : List Char} (made : Digits digits) {rest : List Char}
    (other : digitNext rest = false) :
    (pointed (digits ++ rest)).result.isSome = fractionNext rest := by
  have alone := isSome_pointed other
  have none : (Rule.run CharClass.digit.accepts rest).result = some ([], rest) :=
    result_run_of_digits (List.forall_mem_nil _) other
  rw [pointed, result_bind_of_some none] at alone
  rw [pointed, result_bind_of_some (result_run_of_digits made other), fractionNext, ← alone]
  rw [result_bind, result_bind]
  cases (Rule.literal "." rest).result with
  | none => rfl
  | some pair =>
    rw [Option.bind_some, Option.bind_some, result_bind, result_bind]
    cases (integer pair.2).result <;> rfl

/-- The text behind digits that are taken as far as they go begins with none. -/
theorem digitNext_dropWhile (text : List Char) :
    digitNext (text.dropWhile CharClass.digit.accepts) = false := by
  have stop := List.head?_dropWhile_not CharClass.digit.accepts text
  rw [digitNext]
  cases front : (text.dropWhile CharClass.digit.accepts).head? with
  | none => rfl
  | some c =>
    rw [front] at stop
    exact stop

/-- The whole part of a number goes on with what digits come, and with a point with digits behind
it. -/
theorem result_number_of_digits {digits : List Char} (nonempty : digits ≠ []) (made : Digits digits)
    (more : List Char) : ∃ taken, more = taken ++ Ending.whole.left more ∧
      (number (digits ++ more)).result = some (digits ++ taken, Ending.whole.left more) := by
  have cut := List.takeWhile_append_dropWhile (p := CharClass.digit.accepts) (l := more)
  have other := digitNext_dropWhile more
  have madeToo : Digits (digits ++ more.takeWhile CharClass.digit.accepts) :=
    List.forall_mem_append.mpr ⟨made, fun c member => List.mem_takeWhile_imp member⟩
  rw [Ending.left]
  split
  · rename_i next
    obtain ⟨point, digit⟩ := Bool.and_eq_true_iff.mp next
    obtain ⟨behind, left⟩ := List.head?_eq_some_iff.mp (of_decide_eq_true point)
    rw [left] at cut digit ⊢
    obtain ⟨d, others, rfl, isDigit⟩ := exists_of_digitNext digit
    refine ⟨more.takeWhile CharClass.digit.accepts ++ '.' ::
      (d :: others).takeWhile CharClass.digit.accepts, ?_, ?_⟩
    · simpa [List.append_assoc, List.takeWhile_append_dropWhile] using cut.symm
    · have found := result_number_of_point madeToo (List.cons_ne_nil d [])
        (List.forall_mem_singleton.mpr isDigit) others
      have accepted : CharClass.digit.accepts d = true := isDigit
      rw [List.append_assoc, List.singleton_append, cut] at found
      rw [found, List.tail_cons, List.takeWhile_cons_of_pos accepted,
        List.dropWhile_cons_of_pos accepted, List.append_assoc]
      rfl
  · rename_i next
    refine ⟨more.takeWhile CharClass.digit.accepts, cut.symm, ?_⟩
    have missed := isSome_pointed_append madeToo other
    rw [Bool.eq_false_iff.mpr next, List.append_assoc, cut, Option.isSome_eq_false_iff,
      Option.isNone_iff_eq_none] at missed
    rw [number, result_firstOf_cons, missed, Option.none_or, result_firstOf_cons, integer,
      Resumable.result_chars_append nonempty made more]
    rfl

/-- A number that is read has digits behind a point, or it is digits up to what is neither a digit
nor a point with a digit behind it. -/
theorem of_result_number {front rest value : List Char}
    (found : (number (front ++ rest)).result = some (value, rest)) :
    (∃ digits fraction, front = digits ++ '.' :: fraction ∧ Digits digits ∧ fraction ≠ [] ∧
        Digits fraction ∧ digitNext rest = false) ∨
      front ≠ [] ∧ Digits front ∧ Ending.whole.left rest = rest := by
  have refused {rest : List Char} (refused : ∀ c ∈ rest.head?, CharClass.digit.accepts c = false) :
      digitNext rest = false := by
    cases rest with
    | nil => rfl
    | cons c rest => exact refused c rfl
  rw [number, result_firstOf_cons, Option.or_eq_some_iff] at found
  obtain first | ⟨missed, second⟩ := found
  · left
    rw [pointed, result_bind, Option.bind_eq_some_iff] at first
    obtain ⟨⟨digits, left⟩, taken, later⟩ := first
    rw [result_bind, Option.bind_eq_some_iff] at later
    obtain ⟨⟨point, behind⟩, second, last⟩ := later
    rw [result_bind, Option.bind_eq_some_iff] at last
    obtain ⟨⟨fraction, tail⟩, third, same⟩ := last
    obtain ⟨-, rfl⟩ : _ ∧ rest = tail := by simpa [eq_comm] using same
    obtain ⟨rfl, rfl⟩ := eq_append_of_result_literal second
    obtain ⟨rfl, some, made, stop⟩ := of_result_chars third
    obtain ⟨rfl, left⟩ := Prod.mk.inj (Option.some.inj taken)
    have whole :=
      List.takeWhile_append_dropWhile (p := CharClass.digit.accepts) (l := front ++ rest)
    rw [left] at whole
    refine ⟨(front ++ rest).takeWhile CharClass.digit.accepts, fraction,
      List.append_cancel_right (whole.symm.trans ?_),
      fun c member => List.mem_takeWhile_imp member, some, made, refused stop⟩
    simp
  · right
    rw [result_firstOf_cons, result_firstOf_nil, Option.or_none, integer] at second
    obtain ⟨whole, some, made, stop⟩ := of_result_chars second
    rw [← List.append_cancel_right whole] at some made
    have next := isSome_pointed_append made (refused stop)
    rw [missed] at next
    refine ⟨some, made, ?_⟩
    have left : rest.dropWhile CharClass.digit.accepts = rest :=
      (@span_append _ [] _ (by simp) stop).2
    rw [Ending.left, left, ← next]
    rfl

/-- What a number misses: a point behind digits, a digit behind a point, or a digit at its
beginning. -/
theorem Misses.number {before after : List Char} {item : Expected}
    (misses : Misses number before after item) : Digits before ∧ item = .literal "." ∨
      (∃ digits, Digits digits ∧ before = digits ++ ['.']) ∧
          item = .charClass CharClass.digit.description ∨
        before = [] ∧ item = .charClass CharClass.digit.description := by
  obtain pointed | ⟨-, others⟩ := misses.cons
  · obtain here | ⟨digits, front, middle, rfl, taken, later⟩ := pointed.bind
    · exact absurd here Misses.not_run
    obtain ⟨same, left⟩ := Prod.mk.inj (Option.some.inj taken)
    have whole := List.takeWhile_append_dropWhile (p := CharClass.digit.accepts)
      (l := front ++ middle ++ after)
    rw [left, List.append_assoc] at whole
    have made : Digits front := by
      rw [← List.append_cancel_right whole]
      exact fun c member => List.mem_takeWhile_imp member
    obtain point | ⟨_, start, last, rfl, read, fraction⟩ := later.bind
    · obtain ⟨rfl, rfl⟩ := point.literal
      exact .inl ⟨by rwa [List.append_nil], rfl⟩
    · obtain ⟨-, same⟩ := eq_append_of_result_literal read
      rw [← List.append_assoc] at same
      obtain digit | ⟨_, _, _, _, _, none⟩ := fraction.bind
      · obtain ⟨rfl, rfl⟩ := digit.chars
        refine .inr (.inl ⟨⟨front, made, ?_⟩, rfl⟩)
        rw [List.append_cancel_right same, List.append_nil]
        rfl
      · exact absurd none Misses.not_pure
  · obtain digit | ⟨-, none⟩ := others.cons
    · obtain ⟨rfl, rfl⟩ := digit.chars
      exact .inr (.inr ⟨rfl, rfl⟩)
    · exact absurd none Misses.not_nil

namespace Resumable

/-- A rule that gives what it reads reads again what it has read if that only goes on with what is
taken of the text behind it. -/
theorem reads_of_taken {rule : Rule (List Char)} {ending : Ending} {front rest value : List Char}
    (found : (rule (front ++ rest)).result = some (value, rest)) (kept : ending.left rest = rest)
    (again : ∀ more, ∃ taken, more = taken ++ ending.left more ∧
      (rule (front ++ more)).result = some (front ++ taken, ending.left more)) (more : List Char) :
    ∃ other, (rule (front ++ more)).result = some (other, ending.left more) ∧
      (ending.left more = more → other = value) := by
  have same {more taken : List Char} (cut : more = taken ++ ending.left more)
      (kept : ending.left more = more) : front ++ taken = front := by
    rw [kept] at cut
    rw [List.self_eq_append_left.mp cut, List.append_nil]
  obtain ⟨taken, cut, read⟩ := again rest
  rw [found, same cut kept, Option.some.injEq, Prod.mk.injEq] at read
  obtain ⟨rfl, -⟩ := read
  obtain ⟨taken, cut, read⟩ := again more
  exact ⟨_, read, same cut⟩

theorem number : Resumable [.digits, .whole] Word.number where
  reads front rest value found := by
    obtain ⟨digits, fraction, rfl, made, some, madeToo, stop⟩ | ⟨some, made, kept⟩ :=
      of_result_number found
    · have left : rest.dropWhile CharClass.digit.accepts = rest := by
        cases rest with
        | nil => rfl
        | cons c rest => exact Ending.left_run_eq_iff.mpr stop
      refine ⟨.digits, .head _, left, reads_of_taken found left fun more =>
        ⟨more.takeWhile CharClass.digit.accepts, List.takeWhile_append_dropWhile.symm, ?_⟩⟩
      have read := result_number_of_point made some madeToo more
      rwa [← List.cons_append, ← List.cons_append, ← List.append_assoc, ← List.append_assoc] at read
    · exact ⟨.whole, .tail _ (.head _), kept, reads_of_taken found kept fun more =>
        result_number_of_digits some made more⟩
  misses before after item misses := by
    have zero : Digits ['0'] := by decide
    obtain ⟨made, rfl⟩ | ⟨⟨digits, made, rfl⟩, rfl⟩ | ⟨rfl, rfl⟩ := misses.number
    · refine ⟨['.', '0'], before ++ ['.', '0'], by simp, ⟨['0'], rfl⟩, ?_⟩
      simpa using result_number_of_point made (List.cons_ne_nil _ _) zero []
    · refine ⟨['0'], digits ++ ['.', '0'], by simp, ⟨.digit, rfl, '0', rfl, by decide⟩, ?_⟩
      simpa using result_number_of_point made (List.cons_ne_nil _ _) zero []
    · exact ⟨['0'], ['0'], by simp, ⟨.digit, rfl, '0', rfl, by decide⟩, by decide⟩
  full := ⟨['0'], ['0'], by decide⟩

theorem forceSignedNumber : Resumable [.digits, .whole] Word.forceSignedNumber :=
  bind_closed (oneOf (c := '+') (by decide)) fun _ => map _ number

end Resumable

/-- Behind a sign, a number is read. -/
theorem result_signedNumber_of_mark {c : Char} (mark : CharClass.sign.accepts c = true)
    (rest : List Char) : (signedNumber (c :: rest)).result =
      (number rest).result.map fun found => (c :: found.1, found.2) := by
  have sign : (optional Word.sign (c :: rest)).result = some (some c, rest) := by
    simp [result_optional, Word.sign, result_oneOf, mark]
  rw [signedNumber, result_bind_of_some sign, result_bind]
  cases (number rest).result <;> rfl

/-- Where no sign comes, a number is read without one. -/
theorem result_signedNumber_of_unmarked {text : List Char}
    (unmarked : text.head?.any CharClass.sign.accepts = false) :
    (signedNumber text).result = (number text).result := by
  have sign : (optional Word.sign text).result = some (none, text) := by
    simp [result_optional, Word.sign, result_oneOf, unmarked]
  rw [signedNumber, result_bind_of_some sign, result_bind]
  cases (number text).result <;> rfl

/-- A number begins with a digit or a point. -/
theorem unmarked_of_number {text : List Char} (some : (number text).result.isSome = true) :
    text.head?.any CharClass.sign.accepts = false := by
  rw [isSome_number] at some
  cases text with
  | nil => rfl
  | cons c rest =>
    have marks : ∀ sign ∈ ['+', '-'], CharClass.digit.accepts sign = false ∧ sign ≠ '.' := by decide
    by_contra marked
    have sign : CharClass.sign.accepts c = true := by simpa using marked
    obtain ⟨digit, point⟩ := marks c (by simpa [CharClass.accepts] using sign)
    simp [numberNext, digitNext, digit, point] at some

/-- A number that may have a sign misses the sign at its beginning, or what a number misses, behind
the sign or without one. -/
theorem Misses.signedNumber {before after : List Char} {item : Expected}
    (misses : Misses Word.signedNumber before after item) :
    before = [] ∧ item = .charClass CharClass.sign.description ∨ Misses Word.number before after item ∨
      ∃ c rest, before = c :: rest ∧ CharClass.sign.accepts c = true ∧
        Misses Word.number rest after item := by
  obtain sign | ⟨mark, front, middle, rfl, read, later⟩ := misses.bind
  · exact .inl sign.optional.oneOf
  · right
    have behind : Misses Word.number middle after item := later.map
    rw [result_optional, Word.sign, result_oneOf] at read
    split at read
    · rename_i marked
      right
      cases front with
      | nil =>
        have lengths := congrArg (List.length ∘ Prod.snd) (Option.some.inj read)
        cases text : middle ++ after with
        | nil => simp [text] at marked
        | cons c rest => simp [text] at lengths
      | cons c front =>
        obtain ⟨-, same⟩ := Prod.mk.inj (Option.some.inj read)
        have none : front = [] := by simpa using same
        subst none
        exact ⟨c, middle, rfl, by simpa using marked, behind⟩
    · left
      obtain ⟨-, same⟩ := Prod.mk.inj (Option.some.inj read)
      have none : front = [] := by simpa using same
      subst none
      exact behind

/-- What a number that may have a sign misses at its beginning or behind a point. -/
theorem Misses.signedNumber_short {before after : List Char} {item : Expected}
    (misses : Misses Word.signedNumber before after item) :
    (before = [] → item ∈ [.charClass CharClass.sign.description, .literal ".",
      .charClass CharClass.digit.description]) ∧
    (before = ['.'] → item = .charClass CharClass.digit.description) := by
  constructor
  · rintro rfl
    obtain ⟨-, rfl⟩ | unsigned | ⟨_, _, same, -⟩ := misses.signedNumber
    · exact .head _
    · obtain ⟨-, rfl⟩ | ⟨-, rfl⟩ | ⟨-, rfl⟩ := unsigned.number <;> simp
    · cases same
  · rintro rfl
    obtain ⟨same, -⟩ | unsigned | ⟨_, _, same, signed, -⟩ := misses.signedNumber
    · cases same
    · obtain ⟨made, -⟩ | ⟨-, same⟩ | ⟨same, -⟩ := unsigned.number
      · exact absurd (made '.' (.head _)) (by decide)
      · exact same
      · cases same
    · cases same
      exact absurd signed (by decide)

/-- What each item that begins a number can be completed with. -/
theorem opens_number : Expected.Opens ['+', '0'] (.charClass CharClass.sign.description) ∧
    Expected.Opens ['.', '0'] (.literal ".") ∧
      Expected.Opens ['0'] (.charClass CharClass.digit.description) :=
  ⟨⟨.sign, rfl, '+', rfl, by decide⟩, ⟨['0'], rfl⟩, .digit, rfl, '0', rfl, by decide⟩

theorem Resumable.signedNumber : Resumable [.digits, .whole] Word.signedNumber where
  reads front rest value found := by
    cases front with
    | nil =>
      have shorter := Consuming.shorter found
      exact absurd shorter (Nat.lt_irrefl _)
    | cons c front =>
      by_cases mark : CharClass.sign.accepts c = true
      · rw [List.cons_append, result_signedNumber_of_mark mark, Option.map_eq_some_iff] at found
        obtain ⟨⟨digits, left⟩, read, same⟩ := found
        cases same
        obtain ⟨ending, member, kept, again⟩ := Resumable.number.reads read
        refine ⟨ending, member, kept, fun more => ?_⟩
        obtain ⟨other, read, same⟩ := again more
        refine ⟨c :: other, ?_, fun kept => by rw [same kept]⟩
        rw [List.cons_append, result_signedNumber_of_mark mark, read]
        rfl
      · have unmarked (more : List Char) :
            (c :: front ++ more).head?.any CharClass.sign.accepts = false := by simpa using mark
        rw [result_signedNumber_of_unmarked (unmarked rest)] at found
        obtain ⟨ending, member, kept, again⟩ := Resumable.number.reads found
        refine ⟨ending, member, kept, fun more => ?_⟩
        rw [result_signedNumber_of_unmarked (unmarked more)]
        exact again more
  misses before after item misses := by
    obtain ⟨rfl, rfl⟩ | unsigned | ⟨c, rest, rfl, mark, signed⟩ := misses.signedNumber
    · exact ⟨['+', '0'], ['+', '0'], by simp, ⟨.sign, rfl, '+', rfl, by decide⟩, by decide⟩
    · obtain ⟨more, value, some, opens, read⟩ := Resumable.number.misses unsigned
      refine ⟨more, value, some, opens, ?_⟩
      rw [result_signedNumber_of_unmarked (unmarked_of_number (by rw [read]; rfl)), read]
    · obtain ⟨more, value, some, opens, read⟩ := Resumable.number.misses signed
      refine ⟨more, c :: value, some, opens, ?_⟩
      rw [List.cons_append, result_signedNumber_of_mark mark, read]
      rfl
  full := ⟨['0'], ['0'], by decide⟩

end ActionString.Grammar
