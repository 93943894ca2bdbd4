import ActionString.Proofs.Casing
import ActionString.Proofs.Endings
import ActionString.Proofs.Locations

/-!
# Completing destinations

A position is two numbers, each with a letter or a sign, and behind it an altitude and a direction
may come. A number at the end of a position takes digits and a point from the text behind it, so
there what is looked for next may also be more of the position. Whatever is missed in a destination
completes the text before it.
-/

namespace ActionString.Grammar

open Rule Word

variable {α : Type} {before after : List Char} {item : Expected}

/-- The ways in which positions end. -/
def placeEndings : List Ending := [.closed, .digits, .whole]

/-- What begins with no number is left by every number before it. -/
theorem left_of_numberNext {text : List Char} (none : numberNext text = false) :
    ∀ ending ∈ [Ending.digits, .whole], ending.left text = text := by
  have digits : Ending.digits.left text = text :=
    Ending.left_run_eq_iff.mpr (Bool.or_eq_false_iff.mp none).1
  intro ending member
  simp only [List.mem_cons, List.not_mem_nil, or_false] at member
  obtain rfl | rfl := member
  · exact digits
  · exact Ending.left_whole_eq_iff.mpr none

/-- A number begins with no space, with a sign or without. -/
theorem strip_of_next {text : List Char} (next : (numberNext text || signedNext text) = true) :
    strip text = text := by
  cases text with
  | nil => rfl
  | cons c rest =>
    refine strip_cons_of_not (Bool.eq_false_iff.mpr fun space => ?_) _
    have refused : ∀ n < 33, Numeral.accepts (Char.ofNat n) = false := by decide
    have other := refused_of_isSpace refused space
    simp only [Numeral.accepts, Bool.or_eq_false_iff, decide_eq_false_iff_not] at other
    obtain ⟨⟨⟨digit, point⟩, plus⟩, minus⟩ := other
    simp [numberNext, signedNext, digitNext, CharClass.accepts] at next digit
    simp_all

/-- The letter of a hemisphere begins no number. -/
theorem numberNext_of_letter {kind : CharClass} (member : kind ∈ [CharClass.northOrSouth, .eastOrWest])
    {text : List Char} (letter : text.head?.any kind.accepts = true) : numberNext text = false := by
  cases text with
  | nil => cases letter
  | cons c rest =>
    have each : ∀ c ∈ "nNsSeEwW".toList, CharClass.digit.accepts c = false ∧ c ≠ '.' := by decide
    have known : c ∈ "nNsSeEwW".toList := by
      simp only [List.mem_cons, List.not_mem_nil, or_false] at member
      obtain rfl | rfl := member <;>
        simp only [List.head?_cons, Option.any_some, CharClass.accepts, Bool.or_eq_true,
          decide_eq_true_eq] at letter <;>
        obtain ((rfl | rfl) | rfl) | rfl := letter <;> decide
    obtain ⟨digit, point⟩ := each c known
    simp [numberNext, digitNext, digit, point]

theorem resumable_absolutePlace : Resumable [.closed] absolutePlace := by
  have apart {kind : CharClass} (member : kind ∈ [CharClass.northOrSouth, .eastOrWest]) {α : Type}
      {next : Char → Rule α} {text : List Char}
      (some : ((oneOf kind >>= next) text).result.isSome = true) :
      ∀ ending ∈ [Ending.digits, .whole], ending.left text = text := by
    have first := isSome_of_bind some
    rw [isSome_oneOf] at first
    exact left_of_numberNext (numberNext_of_letter member first)
  have east (value : List Char → Char → Place) : Resumable [.closed] (do
      let east ← number
      let eastLetter ← oneOf .eastOrWest
      return value east eastLetter) :=
    Resumable.number.bind (fun _ => (Resumable.oneOf (c := 'E') (by decide)).map _)
      fun ending member _ text some => apart (by simp) some ending member
  have spaced (value : List Char → Char → Place) : Resumable [.closed] (do
      spaces
      let east ← number
      let eastLetter ← oneOf .eastOrWest
      return value east eastLetter) := by
    refine Resumable.spaces.bind (fun _ => east value) fun ending member _ text some => ?_
    rw [List.mem_singleton.mp member]
    have first := isSome_of_bind some
    rw [isSome_number] at first
    exact strip_of_next (by rw [first, Bool.true_or])
  exact Resumable.number.bind (fun north => (Resumable.oneOf (c := 'N') (by decide)).bind_closed
    fun letter => spaced fun east eastLetter => .absolute (String.ofList north) letter
      (String.ofList east) eastLetter) fun ending member _ text some =>
        apart (by simp) some ending member

theorem resumable_relativePlace : Resumable [.digits, .whole] relativePlace := by
  have signed (text : List Char) (some : (forceSignedNumber text).result.isSome = true) :
      strip text = text := by
    rw [isSome_forceSignedNumber] at some
    exact strip_of_next (by rw [some, Bool.or_true])
  have second (value : List Char → Place) : Resumable [.digits, .whole] (do
      spaces
      let y ← forceSignedNumber
      return value y) := by
    refine Resumable.spaces.bind (fun _ => Resumable.forceSignedNumber.map _)
      fun ending member _ text some => ?_
    rw [List.mem_singleton.mp member]
    exact signed text (isSome_of_bind some)
  refine Resumable.forceSignedNumber.bind
    (fun x => second fun y => .relative (String.ofList x) (String.ofList y))
    fun ending member _ text some => left_of_numberNext (Bool.eq_false_iff.mpr fun next => ?_)
      ending member
  have stripped : strip text = text := strip_of_next (by rw [next, Bool.true_or])
  rw [result_bind, result_spaces, Option.bind_some, stripped] at some
  have mark := isSome_of_bind some
  rw [isSome_forceSignedNumber, signedNext, unmarked_of_number (by rw [isSome_number, next])] at mark
  cases mark

/-- The rule for a position. -/
def position : Rule Place := firstOf [absolutePlace, relativePlace]

instance : Built position := inferInstanceAs (Built (firstOf _))

instance : Consuming position := inferInstanceAs (Consuming (firstOf _))

theorem resumable_position : Resumable placeEndings position := by
  refine resumable_absolutePlace.cons resumable_relativePlace.singleton fun text some => ?_
  rw [result_firstOf_cons, result_firstOf_nil, Option.or_none] at some
  have mark := isSome_of_bind some
  rw [isSome_forceSignedNumber, signedNext, Bool.and_eq_true] at mark
  refine result_bind_of_none ?_ _
  rw [← Option.not_isSome_iff_eq_none]
  intro number
  rw [unmarked_of_number number] at mark
  cases mark.1

/-- The letter of an altitude begins no number. -/
theorem numberNext_of_keyword {text : List Char}
    (letter : (keyword "a" text).result.isSome = true) : numberNext text = false := by
  obtain ⟨⟨spelt, rest⟩, found⟩ := Option.isSome_iff_exists.mp letter
  have spelling := stripFolded_of_result_keyword found
  have same := Text.map_toLower_of_stripFolded spelling
  rw [Text.eq_append_of_stripFolded spelling]
  cases spelt with
  | nil => cases same
  | cons c others =>
    have lower : c.toLower = 'a' := (List.cons.inj same).1
    have digits : CharClass.digit.accepts c.toLower = CharClass.digit.accepts c :=
      Text.apply_toLower (by decide) c
    rw [lower] at digits
    have point : c ≠ '.' := by
      rintro rfl
      exact absurd lower (by decide)
    have digit : CharClass.digit.accepts c = false := by
      rw [← digits]
      rfl
    simp [numberNext, digitNext, digit, point]

theorem resumable_altitude : Resumable [.closed] altitude := by
  refine Resumable.signedNumber.bind (fun _ => (Resumable.keyword (by decide)).map _)
    fun ending member _ text some => left_of_numberNext ?_ ending member
  exact numberNext_of_keyword (isSome_of_bind some)

/-- What is read behind a position: an altitude and a direction, if they come. -/
def bearings (place : Place) : Rule Location := do
  let altitude ← spacedOptional altitude
  let direction ← spacedOptional (make id integer)
  return ⟨place, altitude, direction⟩

instance (place : Place) : Built (bearings place) := by
  unfold bearings
  infer_instance

/-- A location is a position with what comes behind it. -/
theorem location_eq : location = position >>= bearings := rfl

/-- What a rule leaves of a text when it may read a word behind spaces. -/
def leftBy (rule : Rule α) (text : List Char) : List Char :=
  ((rule (strip text)).result.map Prod.snd).getD text

/-- What is left of a text behind a position. -/
def unread (text : List Char) : List Char := leftBy integer (leftBy altitude text)

/-- An optional word is read or left. -/
theorem exists_spacedOptional (rule : Rule α) (text : List Char) :
    ∃ value, (spacedOptional rule text).result = some (value, leftBy rule text) := by
  cases found : (rule (strip text)).result with
  | none => exact ⟨none, by rw [result_spacedOptional_of_none found, leftBy, found]; rfl⟩
  | some pair =>
    obtain ⟨value, rest⟩ := pair
    exact ⟨some value, by rw [result_spacedOptional_of_some found, leftBy, found]; rfl⟩

/-- A word leaves what its rule leaves. -/
theorem leftBy_make (use : String → α) (rule : Rule (List Char)) (text : List Char) :
    leftBy (make use rule) text = leftBy rule text := by
  rw [leftBy, leftBy, make, result_bind]
  cases (rule (strip text)).result <;> rfl

/-- What comes behind a position is always read. -/
theorem exists_bearings (place : Place) (text : List Char) :
    ∃ value, (bearings place text).result = some (value, unread text) := by
  obtain ⟨height, first⟩ := exists_spacedOptional altitude text
  obtain ⟨turn, second⟩ := exists_spacedOptional (make id integer) (leftBy altitude text)
  rw [leftBy_make] at second
  exact ⟨_, by rw [bearings, result_bind_of_some first, result_bind_of_some second]; rfl⟩

/-- What is left is an end of the text. -/
theorem leftBy_suffix (rule : Rule α) [Forward rule] (text : List Char) :
    leftBy rule text <:+ text := by
  cases found : (rule (strip text)).result with
  | none =>
    rw [leftBy, found]
    exact List.suffix_refl _
  | some pair =>
    rw [leftBy, found]
    exact (Forward.suffix found).trans (strip_suffix text)

/-- What is dropped from a text to leave another at its end is spaces. -/
theorem blank_of_strip_append {front rest : List Char} (same : strip (front ++ rest) = rest) :
    blank front = true := by
  have whole := List.takeWhile_append_dropWhile (p := isSpace) (l := front ++ rest)
  change _ ++ strip (front ++ rest) = _ at whole
  rw [same] at whole
  rw [← List.append_cancel_right whole]
  exact List.all_takeWhile

/-- An optional word that is read is read in front of other texts, too. -/
theorem exists_leftBy {rule : Rule α} [Built rule] [Consuming rule]
    {endings : List Ending} (resumable : Resumable endings rule) {text rest : List Char} {value : α}
    (found : (rule (strip text)).result = some (value, rest)) :
    ∃ front, text = front ++ rest ∧ front ≠ [] ∧ ∃ ending ∈ endings, ending.left rest = rest ∧
      ∀ more, leftBy rule (front ++ more) = ending.left more := by
  obtain ⟨gap, cut, spaces, start⟩ := exists_dropWhile_eq isSpace text
  change text = gap ++ strip text at cut
  obtain ⟨front, whole⟩ := Forward.suffix found
  rw [← whole] at found
  obtain ⟨ending, member, kept, again⟩ := resumable.reads found
  have nonempty : front ≠ [] := by
    rintro rfl
    exact absurd (Consuming.shorter found) (Nat.lt_irrefl _)
  refine ⟨gap ++ front, ?_, by simp [nonempty], ending, member, kept, fun more => ?_⟩
  · rw [List.append_assoc, whole, ← cut]
  · obtain ⟨c, others, rfl⟩ := List.exists_cons_of_ne_nil nonempty
    have stripped : strip (gap ++ (c :: others ++ more)) = c :: others ++ more := by
      refine start _ ?_
      change _ = (strip text).head?
      rw [← whole]
      rfl
    obtain ⟨other, read, -⟩ := again more
    rw [leftBy, List.append_assoc, stripped, read]
    rfl

/-- Up to a place behind it, an optional word is read as in the whole text. -/
theorem leftBy_append {rule : Rule α} [Built rule] [Consuming rule]
    {endings : List Ending} (resumable : Resumable endings rule)
    (runs : ∀ ending ∈ endings, ∃ accepts, ending = .run accepts)
    (inner : after <:+ leftBy rule (before ++ after)) :
    leftBy rule (before ++ after) = leftBy rule before ++ after := by
  cases found : (rule (strip (before ++ after))).result with
  | some pair =>
    obtain ⟨value, rest⟩ := pair
    obtain ⟨front, whole, -, ending, member, kept, again⟩ := exists_leftBy resumable found
    rw [whole, again rest, kept] at inner ⊢
    obtain ⟨middle, rfl⟩ := inner
    rw [← List.append_assoc] at whole
    obtain ⟨accepts, rfl⟩ := runs ending member
    have same : (Ending.run accepts).left middle = middle := by
      rw [Ending.left_run_eq_iff] at kept ⊢
      cases middle with
      | nil => rfl
      | cons c others => exact kept
    rw [List.append_cancel_right whole, again middle, same]
  | none =>
    have all : leftBy rule (before ++ after) = before ++ after := by rw [leftBy, found]; rfl
    have none : (rule (strip before)).result = none := by
      cases read : (rule (strip before)).result with
      | none => rfl
      | some pair =>
        obtain ⟨value, rest⟩ := pair
        obtain ⟨front, rfl, nonempty, ending, member, -, again⟩ := exists_leftBy resumable read
        obtain ⟨accepts, rfl⟩ := runs ending member
        rw [List.append_assoc, again] at all
        have lengths := congrArg List.length all
        have within := (List.dropWhile_suffix (l := rest ++ after) accepts).length_le
        have some := List.length_pos_iff.mpr nonempty
        rw [Ending.left] at lengths
        simp only [List.length_append] at lengths within
        omega
    rw [all, leftBy, none]
    rfl

/-- What is looked for behind a position: an altitude behind spaces, or a direction behind spaces
that come where no altitude is or behind it, or the end. -/
inductive Sought (before after : List Char) : Expected → Prop
  | altitude {gap middle : List Char} {item : Expected} (whole : before = gap ++ middle)
      (spaces : blank gap = true) (misses : Misses Grammar.altitude middle after item) :
      Sought before after item
  | direction {gap : List Char} (left : leftBy Grammar.altitude (before ++ after) = gap ++ after)
      (spaces : blank gap = true) : Sought before after (.charClass CharClass.digit.description)
  | ended (left : after = strip (unread (before ++ after))) : Sought before after .endOfInput

/-- What is missed behind a position is looked for there. -/
theorem sought_of_misses {place : Place} (misses : Misses (bearings place) before after item) :
    Sought before after item := by
  obtain first | ⟨height, front, middle, rfl, read, later⟩ := misses.bind
  · obtain ⟨gap, middle, rfl, stripped, missed⟩ := first.spacedOptional
    rw [List.append_assoc] at stripped
    exact .altitude rfl (blank_of_strip_append stripped) missed
  · obtain second | ⟨_, _, _, _, _, none⟩ := later.bind
    · obtain ⟨gap, middle, rfl, stripped, missed⟩ := second.spacedOptional
      obtain ⟨rfl, rfl⟩ := missed.make.chars
      obtain ⟨value, same⟩ := exists_spacedOptional altitude (front ++ (gap ++ []) ++ after)
      rw [read] at same
      rw [List.append_nil] at same stripped
      refine .direction (?_ : _ = gap ++ after) (blank_of_strip_append stripped)
      rw [List.append_nil]
      exact (Prod.mk.inj (Option.some.inj same)).2.symm
    · exact absurd none Misses.not_pure

/-- Digits behind spaces are read as a direction, where they are no altitude. -/
theorem unread_of_zero {text gap : List Char} (spaces : blank gap = true)
    (left : leftBy altitude text = gap ++ ['0']) : unread text = [] := by
  have stripped : strip (gap ++ ['0']) = ['0'] := strip_append_of_blank spaces _
  rw [unread, left, leftBy, stripped]
  rfl

/-- An altitude begins like a number. -/
theorem strip_of_altitude {text : List Char} (some : (altitude text).result.isSome = true) :
    strip text = text := by
  have number := isSome_of_bind some
  cases text with
  | nil => rfl
  | cons c rest =>
    refine strip_of_next ?_
    by_cases mark : CharClass.sign.accepts c = true
    · rw [result_signedNumber_of_mark mark, Option.isSome_map, isSome_number] at number
      rw [signedNext, Bool.or_eq_true, Bool.and_eq_true]
      exact .inr ⟨mark, number⟩
    · rw [result_signedNumber_of_unmarked (by simpa using mark), isSome_number] at number
      rw [number, Bool.true_or]

/-- What is looked for behind a position completes what is read behind it. -/
theorem Sought.completes (sought : Sought before after item) :
    ∃ more, item.Opens more ∧ blank (unread (before ++ more)) = true := by
  cases sought with
  | @altitude gap middle _ whole spaces misses =>
    obtain ⟨more, value, -, opens, found⟩ := resumable_altitude.misses misses
    have stripped : strip (before ++ more) = middle ++ more := by
      rw [whole, List.append_assoc, strip_append_of_blank spaces,
        strip_of_altitude (by rw [found]; rfl)]
    have left : leftBy Grammar.altitude (before ++ more) = [] := by
      rw [leftBy, stripped, found]
      rfl
    exact ⟨more, opens, by rw [unread, left]; rfl⟩
  | @direction gap left spaces =>
    refine ⟨['0'], opens_number.2.2, ?_⟩
    suffices same : leftBy Grammar.altitude (before ++ ['0']) = gap ++ ['0'] by
      rw [unread_of_zero spaces same]
      rfl
    cases found : (Grammar.altitude (strip (before ++ after))).result with
    | some pair =>
      obtain ⟨value, rest⟩ := pair
      obtain ⟨front, whole, -, ending, member, kept, again⟩ := exists_leftBy resumable_altitude found
      obtain rfl := List.mem_singleton.mp member
      rw [whole, again, Ending.left_closed] at left
      rw [left, ← List.append_assoc] at whole
      rw [List.append_cancel_right whole, List.append_assoc, again, Ending.left_closed]
    | none =>
      have all : leftBy Grammar.altitude (before ++ after) = before ++ after := by
        rw [leftBy, found]
        rfl
      rw [all] at left
      have stripped : strip (gap ++ ['0']) = ['0'] := strip_append_of_blank spaces _
      rw [List.append_cancel_right left, leftBy, stripped]
      rfl
  | ended left =>
    refine ⟨[], rfl, ?_⟩
    have last := strip_suffix (unread (before ++ after))
    rw [← left] at last
    have first := leftBy_append resumable_altitude (by simp)
      (last.trans (leftBy_suffix integer _))
    rw [unread, first] at last left
    have digits : Resumable [.run CharClass.digit.accepts] integer := .chars (c := '0') (by decide)
    have second := leftBy_append digits (by simp) last
    rw [second] at left
    rw [List.append_nil]
    exact blank_of_strip_append left.symm

/-- What is looked for at once behind a position, and behind a point that may be more of it. -/
theorem Sought.short (sought : Sought before after item) :
    (before = [] → item ∈ [.charClass CharClass.sign.description, .literal ".",
      .charClass CharClass.digit.description, .endOfInput]) ∧
    (before = ['.'] → item = .charClass CharClass.digit.description) := by
  cases sought with
  | @altitude gap middle _ whole spaces misses =>
    obtain signed | ⟨_, front, inner, rfl, read, later⟩ := misses.bind
    · have short := signed.signedNumber_short
      subst whole
      constructor
      · intro none
        have items := short.1 (List.append_eq_nil_iff.mp none).2
        simp only [List.mem_cons, List.not_mem_nil, or_false] at items ⊢
        exact items.imp_right fun others => others.imp_right .inl
      · intro point
        cases gap with
        | nil => exact short.2 point
        | cons c gap =>
          obtain ⟨rfl, -⟩ := List.cons.inj point
          cases spaces
    · -- The letter of an altitude is missed behind a number only.
      have nonempty : front ≠ [] := by
        rintro rfl
        exact absurd (Consuming.shorter read) (Nat.lt_irrefl _)
      have noPoint : front ≠ ['.'] := by
        rintro rfl
        rw [List.append_assoc] at read
        obtain ⟨ending, -, -, again⟩ := Resumable.signedNumber.reads read
        obtain ⟨other, found, -⟩ := again []
        cases found
      have word : Misses (keyword "a") inner after _ := later.map
      have nothing : inner = [] := word.keyword.1
      subst whole nothing
      rw [List.append_nil]
      constructor
      · exact fun none => absurd (List.append_eq_nil_iff.mp none).2 nonempty
      · intro point
        cases gap with
        | nil => exact absurd point noPoint
        | cons c gap =>
          obtain ⟨rfl, -⟩ := List.cons.inj point
          cases spaces
  | direction => exact ⟨fun _ => by simp, fun _ => rfl⟩
  | ended left =>
    refine ⟨fun _ => by simp, fun point => ?_⟩
    obtain ⟨more, rfl, ended⟩ := Sought.completes (.ended left)
    rw [point] at ended
    exact absurd ended (by decide +kernel)

/-- What is looked for behind a position completes what is read behind it, also where the position
takes a part of it. -/
theorem Sought.completes_ending (sought : Sought before after item) {ending : Ending}
    (member : ending ∈ placeEndings) (kept : ending.left (before ++ after) = before ++ after) :
    ∃ more, item.Opens more ∧ blank (unread (ending.left (before ++ more))) = true := by
  by_cases none : before = []
  · have signs : ∀ ending ∈ placeEndings, blank (unread (ending.left "+0a".toList)) = true ∧
        blank (unread (ending.left "0".toList)) = true ∧
          ∃ text ∈ ["a", ""], blank (unread (ending.left ('.' :: '0' :: text.toList))) = true := by
      decide +kernel
    obtain ⟨sign, digit, text, -, point⟩ := signs ending member
    have items := sought.short.1 none
    simp only [List.mem_cons, List.not_mem_nil, or_false] at items
    subst none
    obtain rfl | rfl | rfl | rfl := items
    · exact ⟨['+', '0', 'a'], ⟨.sign, rfl, '+', rfl, by decide⟩, sign⟩
    · exact ⟨'.' :: '0' :: text.toList, ⟨'0' :: text.toList, rfl⟩, point⟩
    · exact ⟨['0'], opens_number.2.2, digit⟩
    · exact ⟨[], rfl, by rw [List.append_nil, Ending.left_nil]; rfl⟩
  by_cases point : before = ['.']
  · have points : ∀ ending ∈ placeEndings,
        ∃ text ∈ ["a", ""], blank (unread (ending.left ('.' :: '0' :: text.toList))) = true := by
      decide +kernel
    obtain ⟨text, -, ended⟩ := points ending member
    rw [sought.short.2 point, point]
    exact ⟨'0' :: text.toList, ⟨.digit, rfl, '0', rfl, by decide⟩, ended⟩
  · obtain ⟨more, opens, ended⟩ := sought.completes
    exact ⟨more, opens, by rwa [Ending.left_append none point kept]⟩

/-- What is looked for behind a position completes a location. -/
theorem completes_of_sought {front middle : List Char} {place : Place}
    (read : (position (front ++ (middle ++ after))).result = some (place, middle ++ after))
    (sought : Sought middle after item) : Completes location (front ++ middle) item := by
  obtain ⟨ending, member, kept, again⟩ := resumable_position.reads read
  obtain ⟨more, opens, ended⟩ := sought.completes_ending member kept
  obtain ⟨other, found, -⟩ := again (middle ++ more)
  obtain ⟨value, later⟩ := exists_bearings other (ending.left (middle ++ more))
  refine ⟨more, value, _, opens, ?_, ended⟩
  rw [location_eq, List.append_assoc, result_bind_of_some found, later]

/-- Whatever is missed in a location completes the text before it. -/
theorem completes_of_misses_location (misses : Misses location before after item) :
    Completes location before item := by
  rw [location_eq] at misses
  obtain first | ⟨place, front, middle, rfl, read, later⟩ := misses.bind
  · obtain ⟨more, place, -, opens, found⟩ := resumable_position.misses first
    obtain ⟨value, later⟩ := exists_bearings place []
    exact ⟨more, value, _, opens, by rw [location_eq, result_bind_of_some found, later], rfl⟩
  · rw [List.append_assoc] at read
    exact completes_of_sought read (sought_of_misses later)

/-- Where a location ends, the end completes it. -/
theorem completes_of_location {rest : List Char} {value : Location}
    (found : (location (before ++ after)).result = some (value, rest)) (left : after = strip rest) :
    Completes location before .endOfInput := by
  rw [location_eq, result_bind, Option.bind_eq_some_iff] at found
  obtain ⟨⟨place, behind⟩, read, later⟩ := found
  obtain ⟨value, same⟩ := exists_bearings place behind
  rw [later] at same
  obtain rfl : rest = unread behind := (Prod.mk.inj (Option.some.inj same)).2
  have inner : after <:+ behind := by
    rw [left]
    exact (strip_suffix _).trans (Forward.suffix later)
  obtain ⟨front, middle, rfl, rfl⟩ := exists_eq_append_of_suffix (Forward.suffix read) inner
  rw [List.append_assoc] at read
  exact completes_of_sought read (.ended left)

/-! ### Warping -/

/-- A location does not begin with a space. -/
theorem strip_of_location {text : List Char} (some : (location text).result.isSome = true) :
    strip text = text := by
  obtain ⟨⟨value, rest⟩, found⟩ := Option.isSome_iff_exists.mp some
  exact strip_of_next (next_of_location found)

/-- What completes a location completes it behind spaces. -/
theorem Completes.spaced_location {gap : List Char} (spaces : blank gap = true)
    (completes : Completes location before item) :
    Completes (spaced location) (gap ++ before) item := by
  obtain ⟨more, value, rest, opens, found, ended⟩ := completes
  have stripped : strip (gap ++ before ++ more) = before ++ more := by
    rw [List.append_assoc, strip_append_of_blank spaces, strip_of_location (by rw [found]; rfl)]
  exact ⟨more, value, rest, opens, by rw [spaced_eq, stripped, found], ended⟩

/-- The command that warps to a location completes texts. -/
theorem resumes_warp : Resumes (phraseOf .warp) := by
  refine .keyword (by decide) fun _ => .map ?_
  intro before after value rest item found _ _ looked
  obtain misses | ⟨rfl, left⟩ := looked
  · obtain ⟨gap, middle, rfl, stripped, missed⟩ := misses.spaced
    rw [List.append_assoc] at stripped
    exact (completes_of_misses_location missed).spaced_location (blank_of_strip_append stripped)
  · rw [spaced_eq] at found
    have inner : after <:+ strip (before ++ after) := by
      have part := (strip_suffix rest).trans (Forward.suffix found)
      rwa [← left] at part
    obtain ⟨gap, middle, rfl, stripped⟩ := exists_eq_append_of_suffix (strip_suffix _) inner
    rw [stripped] at found
    rw [List.append_assoc] at stripped
    exact (completes_of_location found left).spaced_location (blank_of_strip_append stripped)

end ActionString.Grammar
