import ActionString.Proofs.Animations
import ActionString.Proofs.Travel
import ActionString.Proofs.WrittenNumbers

/-!
# Destinations as they are written

A destination is two distances, perhaps with an altitude and a direction after them. An altitude and
a direction may begin alike and are told apart by the letter after the altitude. So each part of a
destination is read into its own field, whichever of the others there are.
-/

namespace ActionString

open Grammar Rule Word

/-- Two distances: with the letters of their hemispheres, or with signs. -/
inductive Distances where
  | absolute (north : String) (northLetter : Char) (east : String) (eastLetter : Char)
  | relative (x y : Numeral)
  deriving DecidableEq, Repr

namespace Distances

/-- The text of two distances with a gap between them. -/
def print (gap : String) : Distances → String
  | absolute north northLetter east eastLetter =>
    north.push northLetter ++ gap ++ east.push eastLetter
  | relative x y => x.text ++ gap ++ y.text

/-- The position that two distances stand for: with letters they count from the middle of the world,
to the south and to the west as negative, and with signs they count from the avatar. -/
def position : Distances → Position
  | absolute north northLetter east eastLetter =>
    .absolute
      (if northLetter ∈ ['s', 'S'] then -Decimal.floatOf north else Decimal.floatOf north)
      (if eastLetter ∈ ['w', 'W'] then -Decimal.floatOf east else Decimal.floatOf east)
  | relative x y => .relative x.value y.value

/-- Whether distances are well written. -/
def Valid : Distances → Prop
  | absolute north northLetter east eastLetter =>
    Unsigned north ∧ northLetter ∈ ['n', 'N', 's', 'S'] ∧
      Unsigned east ∧ eastLetter ∈ ['e', 'E', 'w', 'W']
  | relative x y => (x.Valid ∧ x.sign.isSome = true) ∧ y.Valid ∧ y.sign.isSome = true

/-- The place that is read from two distances. -/
def place : Distances → Place
  | absolute north northLetter east eastLetter => .absolute north northLetter east eastLetter
  | relative x y => .relative x.text y.text

end Distances

/-- A destination as it is written: two distances with a gap between them, perhaps an altitude with
its letter, and perhaps the digits of a direction. -/
structure Destination where
  distances : Distances
  gap : String
  altitude : Option (Numeral × Char)
  direction : Option String
  deriving DecidableEq, Repr

namespace Destination

/-- The text of a part that may be missing, with a space before it. -/
def printPart : Option String → String
  | none => ""
  | some part => " " ++ part

/-- The text of a destination. -/
def print (destination : Destination) : String :=
  destination.distances.print destination.gap ++
    printPart (destination.altitude.map fun written => written.1.text.push written.2) ++
    printPart destination.direction

/-- The altitude that a number stands for: with a sign it counts from where the avatar is. -/
def altitudeOf (numeral : Numeral) : Altitude :=
  ⟨if numeral.sign.isSome then .relative else .absolute, numeral.value⟩

/-- The fields of a destination. -/
def fields (destination : Destination) : List (String × Value) :=
  [("coordinates", .position destination.distances.position)] ++
    destination.altitude.toList.map
      (fun written => ("altitude", .altitude (altitudeOf written.1))) ++
    destination.direction.toList.map fun digits => ("direction", .integer (saturated digits))

/-- Whether a destination is well written: only spaces are in the gap, if anything, and the altitude
has its letter. -/
structure Valid (destination : Destination) : Prop where
  distances : destination.distances.Valid
  gap : ∀ c ∈ destination.gap.toList, isSpace c = true
  altitude : ∀ written ∈ destination.altitude, written.1.Valid ∧ written.2 ∈ ['a', 'A']
  direction : ∀ digits ∈ destination.direction, Made CharClass.digit.accepts digits

/-- The location that is read from a destination. -/
def location (destination : Destination) : Location :=
  ⟨destination.distances.place, destination.altitude.map fun written => written.1.text,
    destination.direction⟩

end Destination

namespace Grammar

/-- A gap of spaces in front of a word is stripped. -/
theorem strip_gap {gap word : List Char} (blank : ∀ c ∈ gap, isSpace c = true)
    (solid : ∃ c rest, word = c :: rest ∧ isSpace c = false) (more : List Char) :
    strip (gap ++ (word ++ more)) = word ++ more := by
  obtain ⟨c, rest, rfl, noSpace⟩ := solid
  rw [strip, List.dropWhile_append_of_pos blank]
  exact strip_cons_of_not noSpace _

/-- An optional word that is there is read after spaces. -/
theorem result_spacedOptional_of_some {α : Type} {rule : Rule α} {text rest : List Char} {value : α}
    (found : (rule (strip text)).result = some (value, rest)) :
    (spacedOptional rule text).result = some (some value, rest) := by
  rw [spacedOptional, result_optional, spaced_eq, found]
  rfl

/-- An optional word that is not there leaves the text as it is. -/
theorem result_spacedOptional_of_none {α : Type} {rule : Rule α} {text : List Char}
    (missed : (rule (strip text)).result = none) :
    (spacedOptional rule text).result = some (none, text) := by
  rw [spacedOptional, result_optional, spaced_eq, missed]
  rfl

/-- Two distances with the letters of their hemispheres are read. -/
theorem result_absolutePlace {north east : String} {northLetter eastLetter : Char}
    (northUnsigned : Unsigned north) (northKnown : northLetter ∈ ['n', 'N', 's', 'S'])
    (eastUnsigned : Unsigned east) (eastKnown : eastLetter ∈ ['e', 'E', 'w', 'W'])
    {gap : List Char} (blank : ∀ c ∈ gap, isSpace c = true) (tail : List Char) :
    (absolutePlace (north.toList ++
        northLetter :: (gap ++ (east.toList ++ eastLetter :: tail)))).result =
      some (.absolute north northLetter east eastLetter, tail) := by
  have letters : ∀ c ∈ ['n', 'N', 's', 'S', 'e', 'E', 'w', 'W'],
      CharClass.digit.accepts c = false ∧ c ≠ '.' := by decide
  have south : ∀ c ∈ ['n', 'N', 's', 'S'], CharClass.northOrSouth.accepts c = true := by decide
  have west : ∀ c ∈ ['e', 'E', 'w', 'W'], CharClass.eastOrWest.accepts c = true := by decide
  have first := result_number northUnsigned (Parted.cons
    (letters northLetter (List.mem_append_left _ northKnown))
    (gap ++ (east.toList ++ eastLetter :: tail)))
  have second := result_number eastUnsigned (Parted.cons
    (letters eastLetter (List.mem_append_right ['n', 'N', 's', 'S'] eastKnown)) tail)
  have stripped := strip_gap blank (eastUnsigned.made.solid (by decide)) (eastLetter :: tail)
  rw [absolutePlace, result_bind_of_some first]
  simp [result_bind, result_oneOf, south northLetter northKnown, stripped, second,
    west eastLetter eastKnown]

/-- Two distances with signs are read. -/
theorem result_relativePlace {x y : Numeral} (xValid : x.Valid) (xSigned : x.sign.isSome = true)
    (yValid : y.Valid) (ySigned : y.sign.isSome = true) {gap : List Char}
    (blank : ∀ c ∈ gap, isSpace c = true) {tail : List Char} (parted : Parted tail) :
    (relativePlace (x.text.toList ++ (gap ++ (y.text.toList ++ tail)))).result =
      some (.relative x.text y.text, tail) := by
  have stripped := strip_gap blank (yValid.made.solid (by decide)) tail
  have first := result_forceSignedNumber xValid xSigned
    (Parted.gap blank (Parted.signed yValid ySigned tail))
  have second := result_forceSignedNumber yValid ySigned parted
  rw [relativePlace, result_bind_of_some first]
  simp [result_bind, stripped, second]

/-- Two distances are read. -/
theorem result_place {distances : Distances} (valid : distances.Valid) {gap : String}
    (blank : ∀ c ∈ gap.toList, isSpace c = true) {tail : List Char} (parted : Parted tail) :
    (firstOf [absolutePlace, relativePlace] ((distances.print gap).toList ++ tail)).result =
      some (distances.place, tail) := by
  rw [result_firstOf_cons, result_firstOf_cons, result_firstOf_nil, Option.or_none]
  cases distances with
  | absolute north northLetter east eastLetter =>
    obtain ⟨northUnsigned, northKnown, eastUnsigned, eastKnown⟩ := valid
    have found := result_absolutePlace northUnsigned northKnown eastUnsigned eastKnown blank tail
    have text : ((Distances.absolute north northLetter east eastLetter).print gap).toList ++ tail =
        north.toList ++ northLetter :: (gap.toList ++ (east.toList ++ eastLetter :: tail)) := by
      simp [Distances.print]
    rw [text, found]
    rfl
  | relative x y =>
    obtain ⟨⟨xValid, xSigned⟩, yValid, ySigned⟩ := valid
    have found := result_relativePlace xValid xSigned yValid ySigned blank parted
    have text : ((Distances.relative x y).print gap).toList ++ tail =
        x.text.toList ++ (gap.toList ++ (y.text.toList ++ tail)) := by
      simp [Distances.print]
    have missed :
        (absolutePlace (x.text.toList ++ (gap.toList ++ (y.text.toList ++ tail)))).result = none :=
      result_bind_of_none (Parted.signed xValid xSigned _).result_number _
    rw [text, missed, found]
    rfl

/-- An altitude is read with its letter. -/
theorem result_altitude {numeral : Numeral} (valid : numeral.Valid) {letter : Char}
    (known : letter ∈ ['a', 'A']) (tail : List Char) :
    (altitude (numeral.text.toList ++ letter :: tail)).result = some (numeral.text, tail) := by
  have letters : ∀ c ∈ ['a', 'A'], (CharClass.digit.accepts c = false ∧ c ≠ '.') ∧
      [c].map Char.toLower = "a".toList.map Char.toLower := by decide
  have number := result_signedNumber valid (Parted.cons (letters letter known).1 tail)
  have word : (keyword "a" (letter :: tail)).result = some ([letter], tail) :=
    result_keyword_of_same (letters letter known).2 tail
  rw [altitude, result_bind_of_some number, result_bind_of_some word, String.ofList_toList]
  rfl

/-- Digits without a letter after them are no altitude. -/
theorem result_altitude_of_digits {digits : String} (made : Made CharClass.digit.accepts digits)
    {tail : List Char} (ends : Ends tail) : (altitude (digits.toList ++ tail)).result = none := by
  have valid : (⟨none, digits⟩ : Numeral).Valid := ⟨by simp, .whole made⟩
  have number := result_signedNumber valid ends.parted
  rw [Numeral.toList_text, Option.toList_none, List.nil_append] at number
  have word : (keyword "a" tail).result = none := by
    cases tail with
    | nil => rfl
    | cons c rest =>
      have stop := ends c rfl
      simp only [List.mem_cons, List.not_mem_nil, or_false] at stop
      obtain rfl | rfl | rfl := stop <;> rfl
  rw [altitude, result_bind_of_some number, result_bind_of_none word]

/-- Where a text ends there is neither an altitude nor a direction. -/
theorem result_nothing {tail : List Char} (ends : Stops.both.At tail) :
    (altitude (strip tail)).result = none ∧ (integer (strip tail)).result = none := by
  cases tail with
  | nil => exact ⟨rfl, rfl⟩
  | cons c rest =>
    have stop := ends c rfl
    simp only [Stops.both, List.mem_cons, List.not_mem_nil, or_false] at stop
    obtain rfl | rfl := stop <;> exact ⟨rfl, rfl⟩

/-- The space before a part is stripped. -/
theorem strip_printPart {part : String}
    (solid : ∃ c rest, part.toList = c :: rest ∧ isSpace c = false) (tail : List Char) :
    strip ((Destination.printPart (some part)).toList ++ tail) = part.toList ++ tail := by
  have space : ∀ c ∈ " ".toList, isSpace c = true := by decide
  rw [Destination.printPart, String.toList_append, List.append_assoc]
  exact strip_gap space solid tail

/-- A direction is read where there is one. -/
theorem result_direction {direction : Option String}
    (valid : ∀ digits ∈ direction, Made CharClass.digit.accepts digits) {tail : List Char}
    (ends : Stops.both.At tail) :
    (spacedOptional (make id integer)
      ((Destination.printPart direction).toList ++ tail)).result = some (direction, tail) := by
  cases direction with
  | none =>
    refine result_spacedOptional_of_none ?_
    exact result_bind_of_none (result_nothing ends).2 _
  | some digits =>
    have made := valid digits rfl
    have found := result_chars made.1 made.2 ((Ends.of_at ends).refused (by decide))
    refine result_spacedOptional_of_some ?_
    rw [strip_printPart (made.solid (by decide)), make, integer, result_bind_of_some found,
      String.ofList_toList]
    rfl

/-- A direction, or the end of a text, is no altitude. -/
theorem result_altitude_of_direction {direction : Option String}
    (valid : ∀ digits ∈ direction, Made CharClass.digit.accepts digits) {tail : List Char}
    (ends : Stops.both.At tail) :
    (altitude (strip ((Destination.printPart direction).toList ++ tail))).result = none := by
  cases direction with
  | none => exact (result_nothing ends).1
  | some digits =>
    have made := valid digits rfl
    rw [strip_printPart (made.solid (by decide))]
    exact result_altitude_of_digits made (.of_at ends)

/-- A part, or the end of a text, ends what is before it. -/
theorem ends_printPart (part : Option String) {tail : List Char} (ends : Ends tail) :
    Ends ((Destination.printPart part).toList ++ tail) := by
  cases part with
  | none => exact ends
  | some part =>
    rw [Destination.printPart, String.toList_append]
    exact Ends.space _

/-- A destination is read as its location, up to a separator. -/
theorem result_location {destination : Destination} (valid : destination.Valid) {tail : List Char}
    (ends : Stops.both.At tail) :
    (location (destination.print.toList ++ tail)).result =
      some (destination.location, tail) := by
  obtain ⟨distances, gap, height, direction⟩ := destination
  obtain ⟨placed, blank, raised, turned⟩ := valid
  let after := (Destination.printPart direction).toList ++ tail
  have afterEnds : Ends after := ends_printPart direction (.of_at ends)
  have last : (spacedOptional (make id integer) after).result = some (direction, tail) :=
    result_direction turned ends
  cases height with
  | none =>
    have text : (Destination.mk distances gap none direction).print.toList ++ tail =
        (distances.print gap).toList ++ after := by
      simp [Destination.print, Destination.printPart, after]
    have place := result_place placed blank afterEnds.parted
    -- A direction is tried as an altitude first, and has no letter.
    have none : (spacedOptional altitude after).result = some (none, after) :=
      result_spacedOptional_of_none (result_altitude_of_direction turned ends)
    rw [text, location, result_bind_of_some place, result_bind_of_some none,
      result_bind_of_some last]
    rfl
  | some written =>
    obtain ⟨numeral, letter⟩ := written
    obtain ⟨numeralValid, known⟩ := raised _ rfl
    let middle := (Destination.printPart (some (numeral.text.push letter))).toList ++ after
    have text : (Destination.mk distances gap (some (numeral, letter)) direction).print.toList ++
        tail = (distances.print gap).toList ++ middle := by
      simp [Destination.print, middle, after]
    have place := result_place placed blank
      (ends_printPart (some (numeral.text.push letter)) afterEnds).parted
    have solid : ∃ c rest, (numeral.text.push letter).toList = c :: rest ∧ isSpace c = false := by
      obtain ⟨c, rest, front, noSpace⟩ := numeralValid.made.solid (by decide)
      exact ⟨c, rest ++ [letter], by simp [front], noSpace⟩
    have found : (spacedOptional altitude middle).result = some (some numeral.text, after) := by
      refine result_spacedOptional_of_some ?_
      rw [strip_printPart solid, String.toList_push, List.append_assoc]
      exact result_altitude numeralValid known after
    rw [text, location, result_bind_of_some place, result_bind_of_some found,
      result_bind_of_some last]
    rfl

end Grammar

/-- A word with more after it begins with no space if the word does. -/
theorem exists_cons_append {word : List Char}
    (solid : ∃ c rest, word = c :: rest ∧ isSpace c = false) (more : List Char) :
    ∃ c rest, word ++ more = c :: rest ∧ isSpace c = false := by
  obtain ⟨c, rest, rfl, noSpace⟩ := solid
  exact ⟨c, rest ++ more, rfl, noSpace⟩

namespace Distances

/-- Distances that are well written begin with no space. -/
theorem Valid.solid {distances : Distances} (valid : distances.Valid) (gap : String) :
    ∃ c rest, (distances.print gap).toList = c :: rest ∧ isSpace c = false := by
  cases distances with
  | absolute north northLetter east eastLetter =>
    simp only [print, String.toList_append, String.toList_push, List.append_assoc]
    exact exists_cons_append (valid.1.made.solid (by decide)) _
  | relative x y =>
    simp only [print, String.toList_append, List.append_assoc]
    exact exists_cons_append (valid.1.1.made.solid (by decide)) _

/-- Distances that are well written are tidy when the gap between them is. -/
theorem Valid.tidy {distances : Distances} (valid : distances.Valid) {gap : String}
    (tidyGap : Tidy gap.toList) : Tidy (distances.print gap).toList := by
  have letters : Tidy ['n', 'N', 's', 'S', 'e', 'E', 'w', 'W'] := by decide
  cases distances with
  | absolute north northLetter east eastLetter =>
    obtain ⟨northUnsigned, northKnown, eastUnsigned, eastKnown⟩ := valid
    have first : Tidy [northLetter] :=
      List.forall_mem_singleton.mpr (letters _ (List.mem_append_left _ northKnown))
    have second : Tidy [eastLetter] := List.forall_mem_singleton.mpr
      (letters _ (List.mem_append_right ['n', 'N', 's', 'S'] eastKnown))
    have north := northUnsigned.made.tidy_of_refused (by decide)
    have east := eastUnsigned.made.tidy_of_refused (by decide)
    simp only [print, String.toList_append, String.toList_push]
    exact ((north.append first).append tidyGap).append (east.append second)
  | relative x y =>
    simp only [print, String.toList_append]
    exact (valid.1.1.tidy.append tidyGap).append valid.2.1.tidy

/-- The place that is read from distances is for their position. -/
theorem Valid.position_place {distances : Distances} (valid : distances.Valid) :
    distances.place.position = distances.position := by
  cases distances with
  | absolute north northLetter east eastLetter =>
    obtain ⟨-, northKnown, -, eastKnown⟩ := valid
    have south : ∀ c ∈ ['n', 'N', 's', 'S'],
        (decide (c.toLower = 's') || decide (c.toLower = 'w')) = decide (c ∈ ['s', 'S']) := by
      decide
    have west : ∀ c ∈ ['e', 'E', 'w', 'W'],
        (decide (c.toLower = 's') || decide (c.toLower = 'w')) = decide (c ∈ ['w', 'W']) := by
      decide
    simp only [place, Place.position, Place.signed, position, south _ northKnown,
      west _ eastKnown, decide_eq_true_eq]
  | relative x y => rfl

end Distances

namespace Destination

variable {destination : Destination}

/-- A part that may be missing is tidy if it is tidy where it is there. -/
theorem tidy_printPart {part : Option String} (tidy : ∀ text ∈ part, Tidy text.toList) :
    Tidy (printPart part).toList := by
  cases part with
  | none => exact fun c member => nomatch member
  | some text =>
    rw [printPart, String.toList_append]
    exact Tidy.append (by decide) (tidy text rfl)

/-- A destination that is well written is tidy. -/
theorem Valid.tidy (valid : destination.Valid) : Tidy destination.print.toList := by
  have gap : Tidy destination.gap.toList := fun c member =>
    refused_of_isSpace (by decide) (valid.gap c member)
  have letters : Tidy ['a', 'A'] := by decide
  rw [print, String.toList_append, String.toList_append]
  refine ((valid.distances.tidy gap).append (tidy_printPart ?_)).append (tidy_printPart ?_)
  · intro text member
    obtain ⟨written, given, rfl⟩ := Option.map_eq_some_iff.mp member
    obtain ⟨numeral, known⟩ := valid.altitude written given
    rw [String.toList_push]
    exact numeral.tidy.append (List.forall_mem_singleton.mpr (letters _ known))
  · exact fun digits member => (valid.direction digits member).tidy (by decide)

/-- An altitude that is read is relative exactly if it has a sign. -/
theorem altitudeOf_text {numeral : Numeral} (valid : numeral.Valid) :
    Location.altitudeOf numeral.text = altitudeOf numeral := by
  cases given : numeral.sign with
  | some mark =>
    have known := valid.sign mark given
    simp only [List.mem_cons, List.not_mem_nil, or_false] at known
    rw [Location.altitudeOf, altitudeOf, Numeral.toList_text, given]
    obtain rfl | rfl := known <;> rfl
  | none =>
    obtain ⟨c, rest, front, digit⟩ := valid.number.exists_cons
    have unsigned : c ≠ '+' ∧ c ≠ '-' := by
      constructor <;> rintro rfl <;> exact absurd digit (by decide)
    rw [Location.altitudeOf, altitudeOf, Numeral.toList_text, given, front]
    simp [unsigned, Numeral.value]

/-- The location that is read from a destination has its fields. -/
theorem fields_location (valid : destination.Valid) :
    destination.location.fields = destination.fields := by
  have position := valid.distances.position_place
  rw [Location.fields, fields, location, position]
  congr 2
  cases given : destination.altitude with
  | none => rfl
  | some written => simp [altitudeOf_text (valid.altitude written given).1]

/-- Warping to a destination is spelt by its text. -/
theorem spells_warp (valid : destination.Valid) :
    Spells ("warp " ++ destination.print).toList (.warp destination.location) := by
  have text : ("warp " ++ destination.print).toList =
      CommandKind.warp.word.toList ++ (' ' :: destination.print.toList) := by
    rw [String.toList_append]
    rfl
  rw [text]
  refine ⟨(solid_kind rfl).append _, fun tail ends => ?_⟩
  have solid : ∃ c rest, destination.print.toList = c :: rest ∧ isSpace c = false := by
    simp only [print, String.toList_append, List.append_assoc]
    exact exists_cons_append (valid.distances.solid destination.gap) _
  have stripped : strip (' ' :: (destination.print.toList ++ tail)) =
      destination.print.toList ++ tail :=
    @strip_gap [' '] _ (by decide) solid tail
  have word : (keyword "warp" (CommandKind.warp.word.toList ++
      (' ' :: (destination.print.toList ++ tail)))).result =
        some ("warp".toList, ' ' :: (destination.print.toList ++ tail)) :=
    result_keyword_of_same rfl _
  have found := result_location valid ends
  rw [List.append_assoc, List.cons_append]
  refine result_phrase_of_word (by decide) ?_
  rw [phraseOf, warp, result_bind_of_some word, result_bind, spaced_eq, stripped, found]
  rfl

end Destination

/-- Warping to a destination has exactly the fields of the destination, each of its parts read as it
is written. -/
theorem parse_warp {destination : Destination} (valid : destination.Valid) :
    parse ("create warp " ++ destination.print) =
      ⟨[(.create, [⟨.warp, ⟨destination.fields⟩⟩])]⟩ := by
  have tidy : Tidy ("warp " ++ destination.print).toList := by
    rw [String.toList_append]
    exact Tidy.append (by decide) valid.tidy
  have command : (Phrase.warp destination.location).command? =
      some ⟨.warp, ⟨destination.fields⟩⟩ := by
    rw [Phrase.command?_warp, Destination.fields_location valid]
  have text : "create warp " ++ destination.print =
      "create " ++ ("warp " ++ destination.print) := by
    rw [← String.append_assoc]
    rfl
  rw [text]
  exact parse_create_spells (Destination.spells_warp valid) tidy command rfl

/-- South and west are negative, an altitude with a sign is relative, and a direction past the
greatest is the greatest. Distances with signs may touch, and a number after them is a direction
where no letter makes it an altitude. -/
theorem parse_warp_parts :
    parse "create warp 10.5s .5W +3A 18446744073709551616" =
        ⟨[(.create, [⟨.warp, ⟨[("coordinates",
            .position (.absolute (-Decimal.floatOf "10.5") (-Decimal.floatOf ".5"))),
          ("altitude", .altitude ⟨.relative, Decimal.floatOf "+3"⟩),
          ("direction", .integer 18446744073709551615)]⟩⟩])]⟩ ∧
      parse "create warp +1-2 090" =
        ⟨[(.create, [⟨.warp, ⟨[("coordinates",
            .position (.relative (Decimal.floatOf "+1") (Decimal.floatOf "-2"))),
          ("direction", .integer 90)]⟩⟩])]⟩ := by
  let middle : Destination := ⟨.absolute "10.5" 's' ".5" 'W', " ", some (⟨some '+', "3"⟩, 'A'),
    some "18446744073709551616"⟩
  let near : Destination := ⟨.relative ⟨some '+', "1"⟩ ⟨some '-', "2"⟩, "", none, some "090"⟩
  have digits : Made CharClass.digit.accepts "10" ∧ Made CharClass.digit.accepts "5" ∧
      Made CharClass.digit.accepts "3" ∧ Made CharClass.digit.accepts "1" ∧
      Made CharClass.digit.accepts "2" := by decide
  have middleValid : middle.Valid := by
    refine ⟨⟨.pointed digits.1 digits.2.1, by decide, .fraction digits.2.1, by decide⟩,
      by decide, ?_, ?_⟩
    · rintro _ ⟨⟩
      exact ⟨⟨by simp, .whole digits.2.2.1⟩, by decide⟩
    · rintro _ ⟨⟩
      decide
  have nearValid : near.Valid := by
    refine ⟨⟨⟨⟨by simp, .whole digits.2.2.2.1⟩, rfl⟩, ⟨by simp, .whole digits.2.2.2.2⟩, rfl⟩,
      by decide, (fun _ member => nomatch member), ?_⟩
    rintro _ ⟨⟩
    decide
  have values : saturated "18446744073709551616" = 18446744073709551615 ∧
      saturated "090" = 90 := by decide +kernel
  have first := parse_warp middleValid
  have second := parse_warp nearValid
  refine ⟨first.trans ?_, second.trans ?_⟩
  · rw [← values.1]
    rfl
  · rw [← values.2]
    rfl

end ActionString
