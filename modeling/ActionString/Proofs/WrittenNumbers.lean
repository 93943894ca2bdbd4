import ActionString.Proofs.Canonical
import ActionString.Proofs.Numerals

/-!
# Numbers as they are written

A number is digits, digits with a point between them, or a point with digits after it, and it may
have a sign in front. Each of these texts is read as a whole, up to a character that could not go on
with it.
-/

namespace ActionString

open Grammar Rule Word

/-- The text of a number without a sign. -/
inductive Unsigned : String → Prop where
  | whole {digits : String} (made : Made CharClass.digit.accepts digits) : Unsigned digits
  | pointed {digits fraction : String} (made : Made CharClass.digit.accepts digits)
      (more : Made CharClass.digit.accepts fraction) : Unsigned (digits ++ "." ++ fraction)
  | fraction {fraction : String} (made : Made CharClass.digit.accepts fraction) :
      Unsigned ("." ++ fraction)

/-- A number as it is written: perhaps a sign, and the text of a number without one. -/
structure Numeral where
  sign : Option Char
  number : String
  deriving DecidableEq, Repr

namespace Numeral

/-- The text of a number. -/
def text (numeral : Numeral) : String := String.ofList numeral.sign.toList ++ numeral.number

/-- The floating-point number that a text stands for. -/
def value (numeral : Numeral) : Float := Decimal.floatOf numeral.text

/-- Whether a number is well written. -/
structure Valid (numeral : Numeral) : Prop where
  sign : ∀ c ∈ numeral.sign, c ∈ ['+', '-']
  number : Unsigned numeral.number

/-- Whether a character may stand in the text of a number. -/
def accepts (c : Char) : Bool := c.isDigit || c = '.' || c = '+' || c = '-'

end Numeral

/-- A number without a sign begins with a digit or a point. -/
theorem Unsigned.exists_cons {number : String} (unsigned : Unsigned number) :
    ∃ c rest, number.toList = c :: rest ∧ (c.isDigit = true ∨ c = '.') := by
  cases unsigned with
  | whole made =>
    obtain ⟨c, rest, front⟩ := List.exists_cons_of_ne_nil made.1
    exact ⟨c, rest, front, .inl (made.2 c (by rw [front]; exact .head _))⟩
  | @pointed digits fraction made more =>
    obtain ⟨c, rest, front⟩ := List.exists_cons_of_ne_nil made.1
    exact ⟨c, rest ++ '.' :: fraction.toList, by simp [front],
      .inl (made.2 c (by rw [front]; exact .head _))⟩
  | @fraction fraction made => exact ⟨'.', fraction.toList, by simp, .inr rfl⟩

/-- A number without a sign is a word of digits and points. -/
theorem Unsigned.made {number : String} (unsigned : Unsigned number) :
    Made Numeral.accepts number := by
  have digit {digits : String} (made : Made CharClass.digit.accepts digits) :
      ∀ c ∈ digits.toList, Numeral.accepts c = true := by
    intro c member
    have isDigit : c.isDigit = true := made.2 c member
    simp [Numeral.accepts, isDigit]
  have point : ∀ c ∈ ".".toList, Numeral.accepts c = true := by decide
  constructor
  · intro empty
    obtain ⟨c, rest, front, -⟩ := unsigned.exists_cons
    rw [empty] at front
    cases front
  · cases unsigned with
    | whole made => exact digit made
    | pointed made more =>
      rw [String.toList_append, String.toList_append]
      exact List.forall_mem_append.mpr
        ⟨List.forall_mem_append.mpr ⟨digit made, point⟩, digit more⟩
    | fraction made =>
      rw [String.toList_append]
      exact List.forall_mem_append.mpr ⟨point, digit made⟩

namespace Numeral

variable {numeral : Numeral}

/-- The text of a number is its sign and the number without it. -/
theorem toList_text (numeral : Numeral) :
    numeral.text.toList = numeral.sign.toList ++ numeral.number.toList := by
  rw [text, String.toList_append, String.toList_ofList]

/-- A number that is well written is a word of signs, digits and points. -/
theorem Valid.made (valid : numeral.Valid) : Made accepts numeral.text := by
  have signs : ∀ sign ∈ ['+', '-'], accepts sign = true := by decide
  rw [Made, toList_text, List.forall_mem_append]
  refine ⟨fun empty => valid.number.made.1 (List.append_eq_nil_iff.mp empty).2,
    fun c member => ?_, valid.number.made.2⟩
  exact signs c (valid.sign c (Option.mem_toList.mp member))

/-- A number that is well written is tidy. -/
theorem Valid.tidy (valid : numeral.Valid) : Tidy numeral.text.toList :=
  valid.made.tidy_of_refused (by decide)

end Numeral

namespace Grammar

/-- A text goes on neither with a digit nor with a point, so a number ends before it. -/
def Parted (tail : List Char) : Prop :=
  ∀ c ∈ tail.head?, CharClass.digit.accepts c = false ∧ c ≠ '.'

/-- A number ends before a character that is neither a digit nor a point. -/
theorem Parted.cons {c : Char} (refused : CharClass.digit.accepts c = false ∧ c ≠ '.')
    (rest : List Char) : Parted (c :: rest) := by
  intro d same
  cases same
  exact refused

/-- A number ends at an end. -/
theorem Ends.parted {tail : List Char} (ends : Ends tail) : Parted tail := by
  have stops : ∀ c ∈ [' ', ',', ';'], CharClass.digit.accepts c = false ∧ c ≠ '.' := by decide
  exact fun c member => stops c (ends c member)

/-- A number ends before spaces, and before what it would end before without them. -/
theorem Parted.gap {gap tail : List Char} (blank : ∀ c ∈ gap, isSpace c = true)
    (parted : Parted tail) : Parted (gap ++ tail) := by
  cases gap with
  | nil => exact parted
  | cons c rest =>
    have refused : ∀ n < 33, Numeral.accepts (Char.ofNat n) = false := by decide
    have other := refused_of_isSpace refused (blank c (.head _))
    simp only [Numeral.accepts, Bool.or_eq_false_iff, decide_eq_false_iff_not] at other
    exact Parted.cons ⟨other.1.1.1, other.1.1.2⟩ _

/-- A number ends before a number with a sign. -/
theorem Parted.signed {numeral : Numeral} (valid : numeral.Valid)
    (signed : numeral.sign.isSome = true) (tail : List Char) :
    Parted (numeral.text.toList ++ tail) := by
  obtain ⟨mark, given⟩ := Option.isSome_iff_exists.mp signed
  have signs : ∀ sign ∈ ['+', '-'], CharClass.digit.accepts sign = false ∧ sign ≠ '.' := by decide
  rw [Numeral.toList_text, given]
  exact Parted.cons (signs mark (valid.sign mark given)) _

/-- No number without a sign is read where a number ends. -/
theorem Parted.result_number {text : List Char} (parted : Parted text) :
    (number text).result = none := by
  have next : numberNext text = false := by
    cases text with
    | nil => rfl
    | cons c rest =>
      obtain ⟨digit, point⟩ := parted c rfl
      simp [numberNext, digitNext, digit, point]
  rw [← Option.not_isSome_iff_eq_none, isSome_number, next]
  exact Bool.false_ne_true

/-- Digits after a point are read, with the digits before it. -/
theorem result_pointed {front fraction tail : List Char}
    (accepted : ∀ c ∈ front, CharClass.digit.accepts c = true) (nonempty : fraction ≠ [])
    (digits : ∀ c ∈ fraction, CharClass.digit.accepts c = true) (parted : Parted tail) :
    (pointed (front ++ '.' :: (fraction ++ tail))).result =
      some (front ++ '.' :: fraction, tail) := by
  have span := @span_append _ front ('.' :: (fraction ++ tail)) accepted
    (by simp [CharClass.accepts])
  have whole : (Rule.run CharClass.digit.accepts (front ++ '.' :: (fraction ++ tail))).result =
      some (front, '.' :: (fraction ++ tail)) := by rw [Rule.run, span.1, span.2]
  have point : (literal "." ('.' :: (fraction ++ tail))).result = some (['.'], fraction ++ tail) :=
    result_literal_self rfl _
  have found := result_chars nonempty digits fun c member => (parted c member).1
  rw [pointed, result_bind_of_some whole, result_bind_of_some point, integer,
    result_bind_of_some found]
  simp

/-- A number without a sign is read. -/
theorem result_number {text : String} (unsigned : Unsigned text) {tail : List Char}
    (parted : Parted tail) :
    (number (text.toList ++ tail)).result = some (text.toList, tail) := by
  have refused : ∀ c ∈ tail.head?, CharClass.digit.accepts c = false := fun c member =>
    (parted c member).1
  rw [number, result_firstOf_cons]
  cases unsigned with
  | whole made =>
    -- Without a point after them, the digits are not those before a point.
    have span := span_append made.2 refused
    have whole : (Rule.run CharClass.digit.accepts (text.toList ++ tail)).result =
        some (text.toList, tail) := by rw [Rule.run, span.1, span.2]
    have other : (literal "." tail).result = none :=
      result_literal_of_ne (d := '.') rfl fun head => (parted '.' head).2 rfl
    have missed : (pointed (text.toList ++ tail)).result = none := by
      rw [pointed, result_bind_of_some whole, result_bind_of_none other]
    rw [missed, Option.none_or, result_firstOf_cons, integer,
      result_chars made.1 made.2 refused]
    rfl
  | @pointed digits fraction made more =>
    have found := @result_pointed digits.toList fraction.toList tail made.2 more.1 more.2 parted
    simp [found]
  | @fraction fraction made =>
    have found := @result_pointed [] fraction.toList tail (by simp) made.1 made.2 parted
    simp only [List.nil_append] at found
    simp [found]

/-- A number that begins with a digit or a point has no sign. -/
theorem result_sign_of_unsigned {text : String} (unsigned : Unsigned text) (tail : List Char) :
    (Word.sign (text.toList ++ tail)).result = none := by
  obtain ⟨c, rest, front, digit | rfl⟩ := unsigned.exists_cons
  · have other : CharClass.sign.accepts c = false := by
      rw [Bool.eq_false_iff]
      intro mark
      have signs : ∀ sign ∈ ['+', '-'], sign.isDigit = false := by decide
      have never := signs c (by simpa [CharClass.accepts] using mark)
      rw [digit] at never
      cases never
    simp [Word.sign, result_oneOf, front, other]
  · rw [front]
    rfl

/-- A number that has a sign is read where a sign is needed. -/
theorem result_forceSignedNumber {numeral : Numeral} (valid : numeral.Valid)
    (signed : numeral.sign.isSome = true) {tail : List Char} (parted : Parted tail) :
    (forceSignedNumber (numeral.text.toList ++ tail)).result =
      some (numeral.text.toList, tail) := by
  obtain ⟨mark, given⟩ := Option.isSome_iff_exists.mp signed
  have accepted : CharClass.sign.accepts mark = true := by
    simpa [CharClass.accepts] using valid.sign mark given
  have sign : (Word.sign (mark :: (numeral.number.toList ++ tail))).result =
      some (mark, numeral.number.toList ++ tail) := by
    simp [Word.sign, result_oneOf, accepted]
  rw [Numeral.toList_text, given, Option.toList_some, List.singleton_append, List.cons_append,
    forceSignedNumber, result_bind_of_some sign,
    result_bind_of_some (result_number valid.number parted)]
  rfl

/-- A number is read with its sign where it has one. -/
theorem result_signedNumber {numeral : Numeral} (valid : numeral.Valid) {tail : List Char}
    (parted : Parted tail) :
    (signedNumber (numeral.text.toList ++ tail)).result =
      some (numeral.text.toList, tail) := by
  have number := result_number valid.number parted
  cases given : numeral.sign with
  | none =>
    have sign : (optional Word.sign (numeral.number.toList ++ tail)).result =
        some (none, numeral.number.toList ++ tail) := by
      rw [result_optional, result_sign_of_unsigned valid.number]
      rfl
    rw [Numeral.toList_text, given, Option.toList_none, List.nil_append, signedNumber,
      result_bind_of_some sign, result_bind_of_some number]
    rfl
  | some mark =>
    have accepted : CharClass.sign.accepts mark = true := by
      simpa [CharClass.accepts] using valid.sign mark given
    have sign : (optional Word.sign (mark :: (numeral.number.toList ++ tail))).result =
        some (some mark, numeral.number.toList ++ tail) := by
      simp [result_optional, Word.sign, result_oneOf, accepted]
    rw [Numeral.toList_text, given, Option.toList_some, List.singleton_append, List.cons_append,
      signedNumber, result_bind_of_some sign, result_bind_of_some number]
    rfl

end Grammar

end ActionString
