import ActionString.Proofs.Locations
import ActionString.Proofs.Resolution
import Mathlib

/-!
# Numbers for the axes as they are written

Moving, turning and scaling take numbers for the three axes. Numbers with single spaces between them
are one argument however many they are, and which axes they count for depends on how many they are.
A word between them makes two arguments for one field of them, and then there is no command.
-/

namespace ActionString

open Grammar Rule Word

namespace Meaning

open Float.Model

/-- A floating-point number is known from its parts. -/
theorem eq_of_unpack {x y : Float} (same : x.toModel.unpack = y.toModel.unpack) : x = y := by
  obtain ⟨⟨first, firstValid⟩⟩ := x
  obtain ⟨⟨second, secondValid⟩⟩ := y
  have bits := (UnpackedFloat.unpack_inj_of_valid firstValid secondValid).mp same
  have equal : first = second := UInt64.toBitVec_inj.mp bits
  subst equal
  rfl

/-- What compares as equal to a positive number has the same parts. -/
theorem eq_of_compare {x : UnpackedFloat} {mantissa : Nat} {exponent : Int}
    {positive : 0 < mantissa}
    (same : x.compare (.finite .positive mantissa exponent positive) = some .eq) :
    x = .finite .positive mantissa exponent positive := by
  cases x with
  | infinity sign => cases sign <;> cases same
  | notANumber => cases same
  | zero sign => cases same
  | finite sign otherMantissa otherExponent otherPositive =>
    cases sign with
    | negative => cases same
    | positive =>
      rw [UnpackedFloat.compare, Option.some.injEq, Ordering.then_eq_eq, Int.compare_eq_eq,
        Nat.compare_eq_eq] at same
      obtain ⟨rfl, rfl⟩ := same
      rfl

/-- The least factor is a positive number. -/
theorem exists_unpack_leastFactor : ∃ mantissa exponent positive,
    leastFactor.toModel.unpack = .finite .positive mantissa exponent positive := by
  have kind : (match leastFactor.toModel.unpack with
      | .finite .positive _ _ _ => true
      | _ => false) = true := by decide +kernel
  split at kind
  · exact ⟨_, _, _, ‹_›⟩
  · cases kind

/-- A factor is brought up to the greater of it and the least one. -/
theorem raiseFactor_eq_max (factor : Float) : raiseFactor factor = max factor leastFactor := by
  have lt_iff : factor < leastFactor ↔
      factor.toModel.unpack.compare leastFactor.toModel.unpack = some .lt := by
    change decide _ = true ↔ _
    rw [decide_eq_true_iff]
    exact beq_iff_eq
  have le_iff : factor ≤ leastFactor ↔
      (factor.toModel.unpack.compare leastFactor.toModel.unpack).any (·.isLE) = true := by
    change decide _ = true ↔ _
    rw [decide_eq_true_iff]
    exact Iff.rfl
  have chosen : max factor leastFactor =
      if factor ≤ leastFactor then leastFactor else factor := rfl
  rw [chosen, raiseFactor]
  by_cases less : factor < leastFactor
  · have atMost : factor ≤ leastFactor := by
      rw [le_iff, lt_iff.mp less]
      rfl
    rw [if_pos less, if_pos atMost]
  · rw [if_neg less]
    split
    · rename_i atMost
      rw [le_iff, Option.any_eq_true] at atMost
      obtain ⟨order, found, isLE⟩ := atMost
      cases order with
      | lt => exact absurd (lt_iff.mpr found) less
      | gt => cases isLE
      | eq =>
        obtain ⟨mantissa, exponent, positive, unpacked⟩ := exists_unpack_leastFactor
        rw [unpacked] at found
        exact eq_of_unpack ((eq_of_compare found).trans unpacked.symm)
    · rfl

end Meaning

namespace AxesUse

/-- The commands that take numbers for the axes. -/
def kind : AxesUse → CommandKind
  | distance => .move
  | speed => .rotate
  | factor => .scale

/-- The rules for the arguments of these commands. -/
def argument : AxesUse → Rule Argument
  | distance => Argument.move
  | speed => Argument.rotate
  | factor => Argument.scale

/-- The words of the flags that these commands may have besides the numbers. -/
def flagWords : List String := ["loop", "noloop", "sync", "nosync", "reset", "noreset"]

/-- The axes that numbers count for. A single factor is for all axes and others than the first three
are left out; a single distance or speed is for the vertical axis, and more than three come to
nothing. -/
def vector : AxesUse → List Float → Axes
  | factor, [x] => ⟨max x 0.1, max x 0.1, max x 0.1⟩
  | factor, [x, y] => ⟨max x 0.1, max y 0.1, 1⟩
  | factor, x :: y :: z :: _ => ⟨max x 0.1, max y 0.1, max z 0.1⟩
  | _, [y] => ⟨0, y, 0⟩
  | _, [x, y] => ⟨x, y, 0⟩
  | _, [x, y, z] => ⟨x, y, z⟩
  | _, _ => ⟨0, 0, 0⟩

/-- Some numbers count for the axes in this way. -/
theorem complete_eq_vector (use : AxesUse) {values : List Float} (nonempty : values ≠ []) :
    use.complete values = use.vector values := by
  have raised : Meaning.raiseFactor = (max · 0.1) := funext Meaning.raiseFactor_eq_max
  match values, nonempty with
  | [x], _ => cases use <;> simp [complete, vector, Meaning.completeFactors, raised,
      Meaning.completeVector, Axes.splat]
  | [x, y], _ => cases use <;> simp [complete, vector, Meaning.completeFactors, raised,
      Meaning.completeVector]
  | [x, y, z], _ => cases use <;> simp [complete, vector, Meaning.completeFactors, raised,
      Meaning.completeVector]
  | x :: y :: z :: w :: more, _ => cases use <;> simp [complete, vector, Meaning.completeFactors,
      raised, Meaning.completeVector, Axes.zero]

/-- The commands that take numbers for the axes are a word with these arguments. -/
theorem phraseOf_kind (use : AxesUse) :
    phraseOf use.kind = withArguments use.kind use.argument := by
  cases use <;> rfl

end AxesUse

namespace Grammar

/-- Numbers with a space before each of them. -/
def printNumerals (numerals : List Numeral) : List Char :=
  numerals.flatMap fun numeral => ' ' :: numeral.text.toList

variable {numerals : List Numeral}

/-- Numbers end what is before them. -/
theorem ends_printNumerals (numerals : List Numeral) {tail : List Char} (ends : Ends tail) :
    Ends (printNumerals numerals ++ tail) := by
  cases numerals with
  | nil => exact ends
  | cons numeral numerals => exact Ends.space _

/-- Numbers are read together for the axes, up to an end with no number behind it. -/
theorem result_axes (use : AxesUse) {first : Numeral} {others : List Numeral}
    (valid : ∀ numeral ∈ first :: others, numeral.Valid) {tail : List Char} (ends : Ends tail)
    (last : (signedNumber (strip tail)).result = none) :
    (Argument.axes use (first.text.toList ++ (printNumerals others ++ tail))).result =
      some (.axes use ((first :: others).map Numeral.text), tail) := by
  rw [List.forall_mem_cons] at valid
  have one := result_signedNumber valid.1 (ends_printNumerals others ends).parted
  have each : ∀ item ∈ others.map fun numeral => (numeral.text.toList, numeral.text.toList),
      Reads signedNumber item.1 item.2 := by
    refine List.forall_mem_map.mpr fun numeral member => ?_
    exact ⟨(valid.2 numeral member).made.solid (by decide),
      fun tail ends => result_signedNumber (valid.2 numeral member) ends.parted⟩
  have more := result_spacedMany_words each ends last
  rw [List.flatMap_map] at more
  rw [Argument.axes, result_bind_of_some one, printNumerals, result_bind_of_some more]
  simp [Function.comp_def]

/-- Numbers that are read for the axes are an argument. -/
theorem result_argument_of_axes {use : AxesUse} {text : List Char} {found : Argument × List Char}
    (result : (Argument.axes use text).result = some found) :
    (use.argument text).result = some found := by
  cases use with
  | distance =>
    rw [AxesUse.argument, Argument.move, result_firstOf_cons, result]
    rfl
  | speed =>
    rw [AxesUse.argument, Argument.rotate, result_firstOf_cons, result]
    rfl
  | factor =>
    rw [AxesUse.argument, Argument.scale, result_firstOf_cons, result]
    rfl

/-- Numbers are the first argument of a text that begins with them. -/
theorem result_spacedMany_axes (use : AxesUse) (nonempty : numerals ≠ [])
    (valid : ∀ numeral ∈ numerals, numeral.Valid) {tail rest : List Char} (ends : Ends tail)
    (last : (signedNumber (strip tail)).result = none) {arguments : List Argument}
    (more : (spacedMany use.argument tail).result = some (arguments, rest)) :
    (spacedMany use.argument (printNumerals numerals ++ tail)).result =
      some (.axes use (numerals.map Numeral.text) :: arguments, rest) := by
  obtain ⟨first, others, rfl⟩ := List.exists_cons_of_ne_nil nonempty
  have text : printNumerals (first :: others) ++ tail =
      [' '] ++ (first.text.toList ++ (printNumerals others ++ tail)) := by
    rw [printNumerals, List.flatMap_cons, List.append_assoc]
    rfl
  have stripped := @strip_gap [' '] _ (by decide) ((valid first (.head _)).made.solid
    (by decide)) (printNumerals others ++ tail)
  have found := result_argument_of_axes (result_axes use valid ends last)
  have shorter : tail.length < (printNumerals (first :: others) ++ tail).length := by
    rw [text]
    simp only [List.length_append, List.length_singleton]
    omega
  rw [spacedMany_of_some (by rw [text, stripped, found]) shorter, more]
  rfl

/-- At the end of a command there is neither an argument nor a number. -/
theorem result_argument_of_at (use : AxesUse) {tail : List Char} (ends : Stops.both.At tail) :
    (spacedMany use.argument tail).result = some ([], tail) ∧
      (signedNumber (strip tail)).result = none := by
  have stripped : strip ([] ++ tail) = tail := Stops.strip_append ends
  have none : (use.argument tail).result = none ∧ (signedNumber tail).result = none := by
    cases tail with
    | nil => cases use <;> exact ⟨rfl, rfl⟩
    | cons c rest =>
      have stop := ends c rfl
      simp only [Stops.both, List.mem_cons, List.not_mem_nil, or_false] at stop
      obtain rfl | rfl := stop <;> cases use <;> exact ⟨rfl, rfl⟩
  rw [List.nil_append] at stripped
  rw [spacedMany_of_none (by rw [stripped, none.1]), stripped]
  exact ⟨rfl, none.2⟩

/-- A word of a flag is an argument, and no number. -/
theorem exists_reads_flag (use : AxesUse) {word : String} (known : word ∈ AxesUse.flagWords) :
    ∃ flag, Reads use.argument word.toList (.status flag word) ∧
      ∀ tail, (signedNumber (word.toList ++ tail)).result = none := by
  simp only [AxesUse.flagWords, List.mem_cons, List.not_mem_nil, or_false] at known
  obtain rfl | rfl | rfl | rfl | rfl | rfl := known
  all_goals
    cases use <;> exact ⟨_, ⟨⟨_, _, rfl, rfl⟩, fun tail ends => rfl⟩, fun tail => rfl⟩

/-- Numbers after the word of their command spell the command. -/
theorem spells_axes (use : AxesUse) (nonempty : numerals ≠ [])
    (valid : ∀ numeral ∈ numerals, numeral.Valid) :
    Spells (use.kind.word.toList ++ printNumerals numerals)
      (.arguments use.kind [.axes use (numerals.map Numeral.text)]) := by
  refine .of_arguments (by cases use <;> decide) use.phraseOf_kind fun tail ends => ?_
  obtain ⟨none, last⟩ := result_argument_of_at use ends
  exact result_spacedMany_axes use nonempty valid (.of_at ends) last none

/-- Numbers on both sides of a word of a flag spell a command with two arguments for the axes. -/
theorem exists_spells_torn (use : AxesUse) {before after : List Numeral} (first : before ≠ [])
    (second : after ≠ []) (valid : ∀ numeral ∈ before ++ after, numeral.Valid) {word : String}
    (known : word ∈ AxesUse.flagWords) :
    ∃ flag, Spells
      (use.kind.word.toList ++ (printNumerals before ++ ' ' :: (word.toList ++ printNumerals after)))
      (.arguments use.kind [.axes use (before.map Numeral.text), .status flag word,
        .axes use (after.map Numeral.text)]) := by
  rw [List.forall_mem_append] at valid
  obtain ⟨flag, ⟨solid, reads⟩, noNumber⟩ := exists_reads_flag use known
  refine ⟨flag, .of_arguments (by cases use <;> decide) use.phraseOf_kind fun tail ends => ?_⟩
  obtain ⟨none, last⟩ := result_argument_of_at use ends
  have behind := result_spacedMany_axes use second valid.2 (.of_at ends) last none
  let more := printNumerals after ++ tail
  have stripped : strip (' ' :: (word.toList ++ more)) = word.toList ++ more :=
    @strip_gap [' '] _ (by decide) solid more
  have found := reads (ends_printNumerals after (.of_at ends))
  have middle : (spacedMany use.argument (' ' :: (word.toList ++ more))).result =
      some ([.status flag word, .axes use (after.map Numeral.text)], tail) := by
    have shorter : more.length < (' ' :: (word.toList ++ more)).length := by
      simp only [List.length_cons, List.length_append]
      omega
    rw [spacedMany_of_some (by rw [stripped, found]) shorter, behind]
    rfl
  have front := result_spacedMany_axes use first valid.1 (Ends.space _)
    (by rw [stripped, noNumber]) middle
  rwa [List.append_assoc, List.cons_append, List.append_assoc]

end Grammar

/-- The arguments of numbers have the field of the numbers, with the vector that they count for. -/
theorem field?_axes (use : AxesUse) {numerals : List Numeral} (nonempty : numerals ≠ []) :
    (Argument.axes use (numerals.map Numeral.text)).field? =
      some (use.field, .vector (use.vector (numerals.map Numeral.value))) := by
  have values : (numerals.map Numeral.text).map Decimal.floatOf = numerals.map Numeral.value := by
    rw [List.map_map]
    rfl
  have nonempty : numerals.map Numeral.value ≠ [] := mt List.map_eq_nil_iff.mp nonempty
  rw [Argument.field?, values, use.complete_eq_vector nonempty]

/-- The command with one argument for the axes has the field of this argument alone. -/
theorem command?_axes (use : AxesUse) {numerals : List Numeral} (nonempty : numerals ≠ []) :
    (Phrase.arguments use.kind [.axes use (numerals.map Numeral.text)]).command? =
      some ⟨use.kind, ⟨[(use.field, .vector (use.vector (numerals.map Numeral.value)))]⟩⟩ := by
  have fields : [Argument.axes use (numerals.map Numeral.text)].filterMap Argument.field? =
      [(use.field, .vector (use.vector (numerals.map Numeral.value)))] := by
    rw [List.filterMap_cons_some (field?_axes use nonempty)]
    rfl
  rw [command?_arguments_of_nodup use.kind (by rw [fields]; exact List.nodup_singleton _), fields]
  cases use <;> rfl

/-- There is no command with two arguments for the axes. -/
theorem command?_torn (use : AxesUse) {before after : List Numeral} (first : before ≠ [])
    (second : after ≠ []) (flag : Flag) (word : String) :
    (Phrase.arguments use.kind [.axes use (before.map Numeral.text), .status flag word,
      .axes use (after.map Numeral.text)]).command? = none := by
  refine command?_arguments_of_not_nodup use.kind ?_
  rw [List.filterMap_cons_some (field?_axes use first),
    List.filterMap_cons_some (show (Argument.status flag word).field? = some _ from rfl),
    List.filterMap_cons_some (field?_axes use second)]
  simp

/-- A source with words after the word of a command stands for the command that they spell. -/
theorem parseRaw_create_joined (kind : CommandKind) {words : List String} (nonempty : words ≠ [])
    (tidy : ∀ word ∈ words, Tidy word.toList) {value : Phrase}
    (spelt : Spells (kind.word.toList ++ words.flatMap fun word => ' ' :: word.toList) value) :
    parseRaw ("create " ++ kind.word ++ " " ++ " ".intercalate words) =
      .ok [⟨.create, [value.command?]⟩] := by
  have space : Tidy " ".toList := by decide
  have letters : Tidy kind.word.toList := fun c member =>
    isStray_of_isAlpha (isAlpha_kind kind c member)
  have text : (kind.word ++ " " ++ " ".intercalate words).toList =
      kind.word.toList ++ words.flatMap fun word => ' ' :: word.toList := by
    obtain ⟨first, others, rfl⟩ := List.exists_cons_of_ne_nil nonempty
    rw [String.toList_append, String.toList_append, Item.toList_intercalate_cons,
      List.flatMap_cons, List.append_assoc]
    rfl
  have whole : Tidy (kind.word ++ " " ++ " ".intercalate words).toList := by
    rw [String.toList_append, String.toList_append]
    exact (letters.append space).append (tidy_intercalate space tidy)
  rw [← text] at spelt
  have read := parseRaw_create_single spelt whole
  rwa [← String.append_assoc, ← String.append_assoc] at read

/-- Numbers with single spaces between them are one field of their command: the vector that they
count for. With a word of a flag between two of them there is no command. -/
theorem parse_axes (use : AxesUse) {numerals : List Numeral} (nonempty : numerals ≠ [])
    (valid : ∀ numeral ∈ numerals, numeral.Valid) :
    parse ("create " ++ use.kind.word ++ " " ++ " ".intercalate (numerals.map Numeral.text)) =
        ⟨[(.create, [⟨use.kind,
          ⟨[(use.field, .vector (use.vector (numerals.map Numeral.value)))]⟩⟩])]⟩ ∧
      ∀ before after, before ≠ [] → after ≠ [] → numerals = before ++ after →
        ∀ word ∈ AxesUse.flagWords,
          parse ("create " ++ use.kind.word ++ " " ++
            " ".intercalate (before.map Numeral.text ++ word :: after.map Numeral.text)) = ∅ := by
  have tidy : ∀ text ∈ numerals.map Numeral.text, Tidy text.toList :=
    List.forall_mem_map.mpr fun numeral member => (valid numeral member).tidy
  have words (numerals : List Numeral) : (numerals.map Numeral.text).flatMap
      (fun word => ' ' :: word.toList) = printNumerals numerals := by
    rw [List.flatMap_map]
    rfl
  constructor
  · have spelt := spells_axes use nonempty valid
    rw [← words] at spelt
    have read := parseRaw_create_joined use.kind (mt List.map_eq_nil_iff.mp nonempty) tidy spelt
    rw [command?_axes use nonempty] at read
    exact (parse_eq_single_iff read).mpr ⟨rfl, by cases use <;> rfl⟩
  · rintro before after first second rfl word known
    obtain ⟨flag, spelt⟩ := exists_spells_torn use first second valid known
    have flagTidy : ∀ word ∈ AxesUse.flagWords, Tidy word.toList := by decide
    rw [List.map_append, List.forall_mem_append] at tidy
    have read := parseRaw_create_joined use.kind (List.append_ne_nil_of_right_ne_nil _
      (List.cons_ne_nil word (after.map Numeral.text))) (List.forall_mem_append.mpr
        ⟨tidy.1, List.forall_mem_cons.mpr ⟨flagTidy word known, tidy.2⟩⟩)
      (by rw [List.flatMap_append, List.flatMap_cons, words, words]; exact spelt)
    rw [command?_torn use first second] at read
    rw [parse_of_parseRaw read]
    rfl

/-- Numbers in each of the ways to write them, too many for a distance and for a factor, and a word
of a flag among them. -/
theorem parse_axes_four :
    parse "create move 1 -2.5 +.5 04" =
        ⟨[(.create, [⟨.move, ⟨[("distance", .vector ⟨0, 0, 0⟩)]⟩⟩])]⟩ ∧
      parse "create scale 1 -2.5 +.5 04" =
        ⟨[(.create, [⟨.scale, ⟨[("factor", .vector ⟨max (Decimal.floatOf "1") 0.1,
          max (Decimal.floatOf "-2.5") 0.1, max (Decimal.floatOf "+.5") 0.1⟩)]⟩⟩])]⟩ ∧
      parse "create rotate 1 -2.5 sync +.5 04" = ∅ := by
  let numerals : List Numeral := [⟨none, "1"⟩, ⟨some '-', "2.5"⟩, ⟨some '+', ".5"⟩, ⟨none, "04"⟩]
  have digits : Made CharClass.digit.accepts "1" ∧ Made CharClass.digit.accepts "2" ∧
      Made CharClass.digit.accepts "5" ∧ Made CharClass.digit.accepts "04" := by decide
  have valid : ∀ numeral ∈ numerals, numeral.Valid := by
    simp only [numerals, List.forall_mem_cons]
    exact ⟨⟨by simp, .whole digits.1⟩, ⟨by simp, .pointed digits.2.1 digits.2.2.1⟩,
      ⟨by simp, .fraction digits.2.2.1⟩, ⟨by simp, .whole digits.2.2.2⟩,
      fun _ member => nomatch member⟩
  have nonempty : numerals ≠ [] := List.cons_ne_nil _ _
  refine ⟨(parse_axes .distance nonempty valid).1, (parse_axes .factor nonempty valid).1, ?_⟩
  exact (parse_axes .speed nonempty valid).2 (numerals.take 2) (numerals.drop 2)
    (List.cons_ne_nil _ _) (List.cons_ne_nil _ _) rfl "sync" (by decide)

end ActionString
