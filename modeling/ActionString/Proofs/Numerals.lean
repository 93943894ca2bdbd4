import ActionString.Grammar.Phrase
import ActionString.Proofs.Separated

/-!
# Where numbers begin

A number is read exactly where a digit comes next, or a point with a digit after it. So two
characters decide whether there is a number, with a sign three, and whether there may be the name of
a world or a location.
-/

namespace ActionString.Grammar

open Rule Word

variable {α β : Type}

/-- Whether a digit comes next. -/
def digitNext (text : List Char) : Bool := text.head?.any CharClass.digit.accepts

/-- Whether a number comes next: a digit, or a point with a digit after it. -/
def numberNext (text : List Char) : Bool :=
  digitNext text || (text.head? = some '.' && digitNext text.tail)

/-- Whether a sign with a number after it comes next. -/
def signedNext (text : List Char) : Bool :=
  text.head?.any CharClass.sign.accepts && numberNext text.tail

/-- A digit comes next in a text exactly if it comes next before a space after the text. -/
theorem digitNext_append_space (text more : List Char) :
    digitNext (text ++ ' ' :: more) = digitNext text := by
  cases text <;> rfl

/-- A number comes next in a text exactly if it comes next before a space after the text. -/
theorem numberNext_append_space (text more : List Char) :
    numberNext (text ++ ' ' :: more) = numberNext text := by
  cases text with
  | nil => rfl
  | cons c rest =>
    have tail := digitNext_append_space rest more
    simp only [numberNext, List.cons_append, List.tail_cons, tail]
    rfl

/-- A sign with a number comes next in a text exactly if it comes next before a space after the
text. -/
theorem signedNext_append_space (text more : List Char) :
    signedNext (text ++ ' ' :: more) = signedNext text := by
  cases text with
  | nil => rfl
  | cons c rest =>
    have tail := numberNext_append_space rest more
    simp only [signedNext, List.cons_append, List.tail_cons, tail]
    rfl

/-- A digit that comes next begins the text. -/
theorem exists_of_digitNext {text : List Char} (next : digitNext text = true) :
    ∃ digit rest, text = digit :: rest ∧ digit.isDigit = true := by
  cases text with
  | nil => cases next
  | cons c rest => exact ⟨c, rest, rfl, by simpa [digitNext, CharClass.accepts] using next⟩

/-- A sign with a number begins the text with the sign and a digit, perhaps with a point between
them. -/
theorem exists_of_signedNext {text : List Char} (next : signedNext text = true) :
    ∃ sign ∈ ['+', '-'], ∃ digit : Char, digit.isDigit = true ∧
      ([sign, digit] <+: text ∨ [sign, '.', digit] <+: text) := by
  cases text with
  | nil => cases next
  | cons sign rest =>
    rw [signedNext, Bool.and_eq_true, numberNext, Bool.or_eq_true, Bool.and_eq_true] at next
    obtain ⟨mark, digits | ⟨point, digits⟩⟩ := next
    · obtain ⟨digit, last, rfl, isDigit⟩ := exists_of_digitNext digits
      exact ⟨sign, by simpa [CharClass.accepts] using mark, digit, isDigit, .inl ⟨last, rfl⟩⟩
    · obtain ⟨after, rfl⟩ := List.head?_eq_some_iff.mp (of_decide_eq_true point)
      obtain ⟨digit, last, rfl, isDigit⟩ := exists_of_digitNext digits
      exact ⟨sign, by simpa [CharClass.accepts] using mark, digit, isDigit, .inr ⟨last, rfl⟩⟩

/-- A sequence applies only where its first rule does. -/
theorem isSome_of_bind {rule : Rule α} {next : α → Rule β} {text : List Char}
    (applies : ((rule >>= next) text).result.isSome = true) : (rule text).result.isSome = true := by
  cases found : (rule text).result with
  | none =>
    rw [result_bind_of_none found] at applies
    cases applies
  | some pair => rfl

/-- Looking ahead applies where there is nothing to be found. -/
theorem result_notAhead (rule : Rule α) (text : List Char) :
    (notAhead rule text).result =
      if (rule text).result.isSome = true then none else some ((), text) := rfl

/-- Characters of a class are read where one comes next. -/
theorem isSome_chars (kind : CharClass) (text : List Char) :
    (chars kind text).result.isSome = text.head?.any kind.accepts := by
  cases text with
  | nil => rfl
  | cons c rest => by_cases accepted : kind.accepts c = true <;> simp [chars, expecting, accepted]

/-- A character of a class is read where it comes next. -/
theorem result_oneOf (kind : CharClass) (text : List Char) :
    (oneOf kind text).result =
      if text.head?.any kind.accepts = true then text.head?.map (·, text.tail) else none := by
  cases text with
  | nil => rfl
  | cons c rest => by_cases accepted : kind.accepts c = true <;> simp [oneOf, expecting, accepted]

/-- A character of a class is read exactly where it comes next. -/
theorem isSome_oneOf (kind : CharClass) (text : List Char) :
    (oneOf kind text).result.isSome = text.head?.any kind.accepts := by
  rw [result_oneOf]
  cases text with
  | nil => rfl
  | cons c rest => by_cases accepted : kind.accepts c = true <;> simp [accepted]

/-- Without a digit, digits after a point are read where the point and a digit come next. -/
theorem isSome_pointed {text : List Char} (other : digitNext text = false) :
    (pointed text).result.isSome = (text.head? = some '.' && digitNext text.tail) := by
  have whole : (Rule.run CharClass.digit.accepts text).result = some ([], text) := by
    cases text with
    | nil => rfl
    | cons c rest =>
      have refused : ¬CharClass.digit.accepts c = true := by simpa [digitNext] using other
      simp [Rule.run, refused]
  rw [pointed, result_bind_of_some whole]
  by_cases point : text.head? = some '.'
  · obtain ⟨rest, rfl⟩ := List.head?_eq_some_iff.mp point
    have fraction : (integer rest).result.isSome = digitNext rest := isSome_chars .digit rest
    rw [result_bind_of_some (result_literal_self rfl rest), result_bind]
    cases found : (integer rest).result <;> simp_all
  · rw [result_bind_of_none (result_literal_of_ne rfl point)]
    simp [point]

/-- A number is read where one comes next. -/
theorem isSome_number (text : List Char) : (number text).result.isSome = numberNext text := by
  have digits : (integer text).result.isSome = digitNext text := isSome_chars .digit text
  rw [number, result_firstOf_cons, result_firstOf_cons, result_firstOf_nil, Option.or_none,
    Option.isSome_or, digits, numberNext]
  cases next : digitNext text with
  | true => simp
  | false => rw [isSome_pointed next, Bool.or_false, Bool.false_or]

/-- A number with a sign is read where one comes next. -/
theorem isSome_forceSignedNumber (text : List Char) :
    (forceSignedNumber text).result.isSome = signedNext text := by
  rw [forceSignedNumber, result_bind, Word.sign, result_oneOf, signedNext]
  cases text with
  | nil => rfl
  | cons c rest =>
    have digits := isSome_number rest
    by_cases accepted : CharClass.sign.accepts c = true
    · cases found : (number rest).result <;> simp_all [result_bind]
    · simp [accepted]

/-- The name of a world is read where neither a digit nor a number with a sign comes next. -/
theorem result_worldName (text : List Char) :
    (worldName text).result =
      if (digitNext text || signedNext text) = true then none
      else (chars .worldName text).result := by
  have digit : (oneOf .digit text).result.isSome = digitNext text := isSome_oneOf .digit text
  rw [worldName, result_bind, result_notAhead, digit]
  cases digitNext text with
  | true => rfl
  | false =>
    rw [if_neg Bool.false_ne_true, Option.bind_some, result_bind, result_notAhead,
      isSome_forceSignedNumber]
    cases signedNext text <;> rfl

/-- A location is read only where a number comes next, with or without a sign. -/
theorem next_of_location {text rest : List Char} {value : Location}
    (found : (location text).result = some (value, rest)) :
    (numberNext text || signedNext text) = true := by
  have place : (firstOf [absolutePlace, relativePlace] text).result.isSome = true :=
    isSome_of_bind (show ((firstOf [absolutePlace, relativePlace] >>= _) text).result.isSome = true
      by rw [← location, found]; rfl)
  rw [result_firstOf_cons, result_firstOf_cons, result_firstOf_nil, Option.or_none,
    Option.isSome_or, Bool.or_eq_true] at place
  rw [Bool.or_eq_true, ← isSome_number, ← isSome_forceSignedNumber]
  exact place.imp isSome_of_bind isSome_of_bind

end ActionString.Grammar
