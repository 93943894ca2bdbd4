import ActionString.Proofs.BareWords
import ActionString.Proofs.Casing
import ActionString.Proofs.ColorNumbers
import ActionString.Proofs.Resolution

/-!
# Colours in commands

A token is looked up among the named colours first, although some of their names begin with
hexadecimal digits. The same token stands for the same colour wherever commands take one: alone, or
after the key of a parameter.
-/

namespace ActionString

open Grammar Rule Word

namespace Color

/-- Entries whose names grow from place to place. -/
def Sorted (entries : Array (String × Color)) : Prop :=
  ∀ ⦃i j : Nat⦄ ⦃first second : String × Color⦄, i < j → entries[i]? = some first →
    entries[j]? = some second → first.1 < second.1

/-- The lesser of two names stands before the other. -/
theorem Sorted.lt_of_lt {entries : Array (String × Color)} (sorted : Sorted entries) {i j : Nat}
    {first second : String × Color} (here : entries[i]? = some first)
    (there : entries[j]? = some second) (less : first.1 < second.1) : i < j := by
  obtain before | rfl | after := Nat.lt_trichotomy i j
  · exact before
  · rw [here, Option.some.injEq] at there
    rw [there] at less
    exact absurd less (String.lt_irrefl _)
  · exact absurd (sorted after there here) (String.lt_asymm less)

/-- Halving finds exactly the entry with a name in a range of sorted entries. -/
theorem search_eq_some_iff {name : String} {color : Color} {entries : Array (String × Color)}
    (sorted : Sorted entries) {low high : Nat} (within : high ≤ entries.size) :
    search name entries low high = some color ↔
      ∃ place, low ≤ place ∧ place < high ∧ entries[place]? = some (name, color) := by
  fun_induction search name entries low high with
  | case1 low high nonempty middle missing =>
    exact absurd (Array.getElem?_eq_none_iff.mp missing) (by omega)
  | case2 low high nonempty middle found here =>
    rw [Option.some.injEq]
    constructor
    · rintro rfl
      exact ⟨middle, by omega, by omega, here⟩
    · rintro ⟨place, -, -, there⟩
      obtain before | same | after := Nat.lt_trichotomy middle place
      · exact absurd (sorted before here there) (String.lt_irrefl name)
      · rw [← same, here] at there
        cases there
        rfl
      · exact absurd (sorted after there here) (String.lt_irrefl name)
  | case3 low high nonempty middle key found here differs less ih =>
    rw [ih (by omega)]
    constructor
    · rintro ⟨place, least, greatest, there⟩
      exact ⟨place, least, by omega, there⟩
    · rintro ⟨place, least, -, there⟩
      exact ⟨place, least, sorted.lt_of_lt there here less, there⟩
  | case4 low high nonempty middle key found here differs notLess ih =>
    have greater : key < name := Decidable.byContradiction fun notGreater =>
      differs (String.le_antisymm (String.not_lt.mp notGreater) (String.not_lt.mp notLess))
    rw [ih within]
    constructor
    · rintro ⟨place, least, greatest, there⟩
      exact ⟨place, by omega, greatest, there⟩
    · rintro ⟨place, -, greatest, there⟩
      exact ⟨place, sorted.lt_of_lt here there greater, greatest, there⟩
  | case5 low high empty =>
    constructor
    · intro found
      cases found
    · rintro ⟨place, least, greatest, -⟩
      omega

/-- The names of the palette are in order. -/
theorem sorted_palette : Sorted palette.toArray := by
  have ordered : palette.Pairwise (·.1 < ·.1) := by decide
  intro i j first second before here there
  rw [List.getElem?_toArray] at here there
  obtain ⟨bound, rfl⟩ := List.getElem?_eq_some_iff.mp here
  obtain ⟨other, rfl⟩ := List.getElem?_eq_some_iff.mp there
  exact List.pairwise_iff_getElem.mp ordered i j bound other before

/-- A name is found exactly with the colour that it has in the palette, in any ASCII case. -/
theorem named?_eq_some_iff (name : String) (color : Color) :
    named? name = some color ↔ (Text.foldCase name, color) ∈ palette := by
  rw [named?, search_eq_some_iff sorted_palette (show palette.length ≤ _ from Nat.le_refl _),
    List.mem_iff_getElem?]
  constructor
  · rintro ⟨place, -, -, here⟩
    exact ⟨place, by rwa [List.getElem?_toArray] at here⟩
  · rintro ⟨place, here⟩
    obtain ⟨bound, -⟩ := List.getElem?_eq_some_iff.mp here
    exact ⟨place, Nat.zero_le _, bound, by rwa [List.getElem?_toArray]⟩

/-- The colour of a word, tier by tier: its colour in the palette if it has one, else the colour of
the hexadecimal digits that it begins with if it begins with one, else the colour of its hash. -/
def reference (word : String) : Option Color :=
  match palette.lookup word with
  | some color => some color
  | none =>
    if word.toList.head?.any Char.isHexDigit then ofHexDigits? word else some (ofHash word)

/-- A word whose ASCII letters are small is found as it stands in the palette. -/
theorem named?_eq_lookup {word : String} (small : Text.foldCase word = word) :
    named? word = palette.lookup word := by
  have distinct : (⟨palette⟩ : OrderedMap String Color).keys.Nodup := by decide
  refine Option.ext fun color => ?_
  rw [named?_eq_some_iff, small]
  exact (OrderedMap.get?_eq_some_iff distinct).symm

/-- A word begins with hexadecimal digits exactly if its first character is one. -/
theorem hexFront_eq_nil_iff (word : String) :
    hexFront word = [] ↔ word.toList.head?.any Char.isHexDigit = false := by
  rw [hexFront]
  cases word.toList with
  | nil => simp
  | cons c rest => cases digit : c.isHexDigit <;> simp [digit]

/-- A token stands for the colour of its lower case. -/
theorem reference_lowercase (token : String) :
    reference (Text.lowercase token) = some (ofToken token) := by
  rw [reference, ofToken, ← named?_eq_lookup (Text.foldCase_lowercase token)]
  generalize Text.lowercase token = word
  cases named? word with
  | some color => rfl
  | none =>
    by_cases other : hexFront word = []
    · have begun := (hexFront_eq_nil_iff word).mp other
      simp [begun, ofHexDigits?_of_nil other]
    · have begun := mt (hexFront_eq_nil_iff word).mpr other
      rw [Bool.not_eq_false] at begun
      simp [begun, ofHexDigits?_of_ne_nil other]

end Color

namespace Grammar

/-- A word that is spelt in another ASCII case is a colour code if the word is one. -/
theorem made_of_foldCase {token spelt : String} (made : Made CharClass.colorCode.accepts token)
    (same : Text.foldCase spelt = Text.foldCase token) :
    Made CharClass.colorCode.accepts spelt := by
  rw [Text.foldCase, Text.foldCase, String.ofList_inj] at same
  have lower (c : Char) : Text.isAlphanumeric c.toLower = Text.isAlphanumeric c :=
    Text.apply_toLower (by decide) c
  refine ⟨fun empty => made.1 ?_, fun c member => ?_⟩
  · rw [empty] at same
    exact List.map_eq_nil_iff.mp same.symm
  · obtain ⟨d, inside, equal⟩ := List.mem_map.mp (same ▸ List.mem_map_of_mem member)
    have accepted : Text.isAlphanumeric d = true := made.2 d inside
    rwa [← lower, equal, lower] at accepted

/-- A colour code that stands alone is read as a colour. -/
theorem reads_color {token : String} (made : Made CharClass.colorCode.accepts token) :
    Reads Argument.color token.toList (.color token) := by
  refine ⟨made.solid (by decide), fun tail ends => ?_⟩
  have plain : '=' ∉ token.toList := fun member => absurd (made.2 '=' member) (by decide)
  have found := result_chars made.1 made.2 (ends.refused (by decide))
  rw [Argument.color, result_firstOf_cons, keyed_name plain ends, Option.none_or,
    result_firstOf_cons, make, colorCode, result_bind_of_some found, String.ofList_toList]
  rfl

/-- A colour code after a key is read as a parameter. -/
theorem result_colorParameter (key : String) {token : String}
    (made : Made CharClass.colorCode.accepts token) {tail : List Char} (ends : Ends tail) :
    (Argument.colorParameter (keyword key) (key.toList ++ '=' :: (token.toList ++ tail))).result =
      some (.parameter key (.color token), tail) := by
  have first := @result_keyword_of_same key key.toList rfl ('=' :: (token.toList ++ tail))
  have value := result_chars made.1 made.2 (ends.refused (by decide))
  rw [Argument.colorParameter, colorCode, result_parameter .color first value,
    String.ofList_toList, String.ofList_toList]

/-- The colour of a light is read. -/
theorem reads_light_color {token : String} (made : Made CharClass.colorCode.accepts token) :
    Reads Argument.light ("color=" ++ token).toList (.parameter "color" (.color token)) := by
  rw [String.toList_append]
  refine ⟨⟨'c', _, rfl, by decide⟩, fun tail ends => ?_⟩
  have type : (Argument.parameter (keyword "type") Argument.lightType .word
      ("color=".toList ++ token.toList ++ tail)).result = none := rfl
  rw [Argument.light, result_firstOf_cons, type, Option.none_or, result_firstOf_cons]
  have found := result_colorParameter "color" made ends
  exact congrArg (Option.or · _) found

/-- The colour of a sign is read. -/
theorem reads_sign_color {token : String} (made : Made CharClass.colorCode.accepts token) :
    Reads Argument.sign ("color=" ++ token).toList (.parameter "color" (.color token)) := by
  rw [String.toList_append]
  refine ⟨⟨'c', _, rfl, by decide⟩, fun tail ends => ?_⟩
  rw [Argument.sign, result_firstOf_cons]
  exact congrArg (Option.or · _) (result_colorParameter "color" made ends)

/-- The background colour of a sign is read. -/
theorem reads_sign_bcolor {token : String} (made : Made CharClass.colorCode.accepts token) :
    Reads Argument.sign ("bcolor=" ++ token).toList (.parameter "bcolor" (.color token)) := by
  rw [String.toList_append]
  refine ⟨⟨'b', _, rfl, by decide⟩, fun tail ends => ?_⟩
  have front : (Argument.colorParameter (keyword "color")
      ("bcolor=".toList ++ token.toList ++ tail)).result = none := rfl
  rw [Argument.sign, result_firstOf_cons, front, Option.none_or, result_firstOf_cons]
  exact congrArg (Option.or · _) (result_colorParameter "bcolor" made ends)

end Grammar

/-- A command with a single word is the command with the field that the word stands for. -/
theorem parse_create_word {kind : CommandKind} (known : kind ∈ CommandKind.recognized)
    {rule : Rule Argument} (shape : phraseOf kind = withArguments kind rule)
    (blind : Blind (· ≠ '\x22') .both rule) (missed : (rule []).result = none)
    {word : String} {argument : Argument} (reads : Reads rule word.toList argument)
    (tidy : Tidy word.toList) {field : String × Value} (stands : argument.field? = some field)
    (other : field.1 ≠ "resource") :
    parse ("create " ++ (kind.word ++ " " ++ word)) =
      ⟨[(.create, [⟨kind, ⟨[field]⟩⟩])]⟩ := by
  have printed : (kind.word ++ " " ++ word).toList =
      kind.word.toList ++ [(word.toList, argument)].flatMap fun item => ' ' :: item.1 := by
    simp
  have read := parseRaw_create_words known shape blind missed printed
    (List.forall_mem_singleton.mpr reads) (List.forall_mem_singleton.mpr tidy)
  have fields : [argument].filterMap Argument.field? = [field] := by
    rw [List.filterMap_cons, stands]
    rfl
  have command := @command?_arguments_of_nodup kind [argument] (by simp [fields])
  have named : namedAfter kind [field] = [field] := by
    simp [namedAfter, other]
  rw [fields, named] at command
  refine (parse_eq_single_iff read).mpr ⟨command, ?_⟩
  have valid : kind ≠ .invalid := (CommandKind.mem_recognized_iff kind).mp known
  simp [Command.survives, valid, Command.isEmpty, OrderedMap.isEmpty]

/-- A colour code stands for its colour after each of the commands that take one. -/
theorem parse_ofToken {token : String} (made : Made CharClass.colorCode.accepts token) :
    parse ("create color " ++ token) =
        ⟨[(.create, [⟨.color, ⟨[("color", .color (Color.ofToken token))]⟩⟩])]⟩ ∧
      parse ("create light color=" ++ token) =
        ⟨[(.create, [⟨.light, ⟨[("color", .color (Color.ofToken token))]⟩⟩])]⟩ ∧
      parse ("create sign color=" ++ token) =
        ⟨[(.create, [⟨.sign, ⟨[("color", .color (Color.ofToken token))]⟩⟩])]⟩ ∧
      parse ("create sign bcolor=" ++ token) =
        ⟨[(.create, [⟨.sign, ⟨[("bcolor", .color (Color.ofToken token))]⟩⟩])]⟩ := by
  have tidy : Tidy token.toList := made.tidy_of_refused (by decide +kernel)
  have keyed {key : String} (plain : Tidy key.toList) : Tidy (key ++ token).toList := by
    rw [String.toList_append]
    exact plain.append tidy
  have keys : Text.lowercase "color" = "color" ∧ Text.lowercase "bcolor" = "bcolor" := by decide
  have color : (Argument.parameter "color" (.color token)).field? =
      some ("color", .color (Color.ofToken token)) := by
    rw [Argument.field?, keys.1]
    rfl
  have background : (Argument.parameter "bcolor" (.color token)).field? =
      some ("bcolor", .color (Color.ofToken token)) := by
    rw [Argument.field?, keys.2]
    rfl
  have other : "color" ≠ "resource" ∧ "bcolor" ≠ "resource" := by decide
  have alone := @parse_create_word .color (by decide) _ rfl (.of_worded .color) rfl _ _ (reads_color made)
    tidy _ rfl other.1
  have light := @parse_create_word .light (by decide) _ rfl (.of_worded .light) rfl _ _
    (reads_light_color made) (keyed (by decide)) _ color other.1
  have front := @parse_create_word .sign (by decide) _ rfl (.of_worded .signArgument) rfl _ _
    (reads_sign_color made) (keyed (by decide)) _ color other.1
  have back := @parse_create_word .sign (by decide) _ rfl (.of_worded .signArgument) rfl _ _
    (reads_sign_bcolor made) (keyed (by decide)) _ background other.2
  simp only [← String.append_assoc] at alone light front back
  exact ⟨alone, light, front, back⟩

/-- The named colours are found under their names in any ASCII case, and nothing else is. A token of
letters and digits stands for its colour by the three tiers, after each of the commands that take a
colour and in any ASCII case. -/
theorem parse_color_reference :
    (∀ name color, Color.named? name = some color ↔
        (Text.foldCase name, color) ∈ Color.palette) ∧
      ∀ token, Made CharClass.colorCode.accepts token →
        ∃ color, Color.reference (Text.lowercase token) = some color ∧
          ∀ spelt, Text.foldCase spelt = Text.foldCase token →
            Color.ofToken spelt = color ∧
            parse ("create color " ++ spelt) =
              ⟨[(.create, [⟨.color, ⟨[("color", .color color)]⟩⟩])]⟩ ∧
            parse ("create light color=" ++ spelt) =
              ⟨[(.create, [⟨.light, ⟨[("color", .color color)]⟩⟩])]⟩ ∧
            parse ("create sign color=" ++ spelt) =
              ⟨[(.create, [⟨.sign, ⟨[("color", .color color)]⟩⟩])]⟩ ∧
            parse ("create sign bcolor=" ++ spelt) =
              ⟨[(.create, [⟨.sign, ⟨[("bcolor", .color color)]⟩⟩])]⟩ := by
  refine ⟨Color.named?_eq_some_iff, fun token made => ⟨Color.ofToken token,
    Color.reference_lowercase token, fun spelt same => ?_⟩⟩
  have one : Color.ofToken spelt = Color.ofToken token := by
    rw [Color.ofToken, Color.ofToken, Text.lowercase_congr same]
  refine ⟨one, ?_⟩
  rw [← one]
  exact parse_ofToken (made_of_foldCase made same)

/-- The name of a colour that begins with a hexadecimal digit is its name in any case, and a longer
word is not. -/
theorem parse_color_bronze :
    Made CharClass.colorCode.accepts "bronze" ∧ Made CharClass.colorCode.accepts "bronzed" ∧
      parse "create sign bcolor=BRONZE" =
        ⟨[(.create, [⟨.sign, ⟨[("bcolor", .color ⟨140, 120, 83⟩)]⟩⟩])]⟩ ∧
      parse "create color Bronzed" =
        ⟨[(.create, [⟨.color, ⟨[("color", .color ⟨0, 0, 11⟩)]⟩⟩])]⟩ := by
  have name : Made CharClass.colorCode.accepts "bronze" := by decide
  have longer : Made CharClass.colorCode.accepts "bronzed" := by decide
  have references : Color.reference (Text.lowercase "bronze") = some ⟨140, 120, 83⟩ ∧
      Color.reference (Text.lowercase "bronzed") = some ⟨0, 0, 11⟩ := by decide
  obtain ⟨color, first, bronze⟩ := parse_color_reference.2 "bronze" name
  obtain ⟨other, second, bronzed⟩ := parse_color_reference.2 "bronzed" longer
  rw [references.1, Option.some.injEq] at first
  rw [references.2, Option.some.injEq] at second
  subst first second
  exact ⟨name, longer, (bronze "BRONZE" (by decide)).2.2.2.2,
    (bronzed "Bronzed" (by decide)).2.1⟩

end ActionString
