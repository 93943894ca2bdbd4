import ActionString.Proofs.Forward

/-!
# Rules that read something

A rule for an argument applies only where it reads something, so a repetition of it never stops
because nothing was read. A sequence reads something when one of its rules does, and a choice when
each of its rules does.
-/

namespace ActionString.Grammar

open Rule Word

/-- A rule that leaves less of a text than it was given. -/
class Consuming {α : Type} (rule : Rule α) : Prop where
  shorter : ∀ {text rest : List Char} {value : α},
    (rule text).result = some (value, rest) → rest.length < text.length

namespace Consuming

variable {α β : Type}

/-- A rule by a plain function reads something when the function does. -/
theorem of_expecting (expected : Expected) {read : List Char → Option (α × List Char)}
    (shorter : ∀ {text rest value}, read text = some (value, rest) → rest.length < text.length) :
    Consuming (expecting expected read) where
  shorter := by
    intro text rest value found
    rw [expecting] at found
    split at found
    · rename_i pair readSome
      cases found
      exact shorter readSome
    · cases found

/-- A fixed text reads itself. -/
theorem literal {word : String} (some : word.toList ≠ []) : Consuming (literal word) :=
  of_expecting _ fun found => by
    rw [Option.map_eq_some_iff] at found
    obtain ⟨rest, front, same⟩ := found
    cases same
    rw [List.isPrefixOf?_eq_some_iff_append_eq] at front
    have positive := List.length_pos_iff.mpr some
    rw [← front, List.length_append]
    omega

instance (kind : CharClass) : Consuming (chars kind) := of_expecting _ fun {text _ _} found => by
  split at found
  · cases found
  · rename_i some
    cases found
    have positive : 0 < (text.takeWhile kind.accepts).length := by
      rwa [List.length_pos_iff, Ne, ← List.isEmpty_iff]
    have whole : (text.takeWhile kind.accepts ++ text.dropWhile kind.accepts).length = text.length :=
      congrArg List.length List.takeWhile_append_dropWhile
    rw [List.length_append] at whole
    omega

instance (kind : CharClass) : Consuming (oneOf kind) := of_expecting _ fun found => by
  split at found
  · cases found
  · split at found
    · cases found
      exact Nat.lt_succ_self _
    · cases found

/-- A sequence reads something when its first rule does. -/
instance bind_first (rule : Rule α) (next : α → Rule β) [Consuming rule]
    [∀ value, Forward (next value)] : Consuming (rule >>= next) where
  shorter found := by
    rw [result_bind, Option.bind_eq_some_iff] at found
    obtain ⟨⟨value, middle⟩, first, second⟩ := found
    exact Nat.lt_of_le_of_lt (Forward.length_le second) (shorter first)

/-- A sequence reads something when what comes after its first rule does. -/
instance bind_second (rule : Rule α) (next : α → Rule β) [Forward rule]
    [∀ value, Consuming (next value)] : Consuming (rule >>= next) where
  shorter found := by
    rw [result_bind, Option.bind_eq_some_iff] at found
    obtain ⟨⟨value, middle⟩, first, second⟩ := found
    exact Nat.lt_of_lt_of_le (shorter second) (Forward.length_le first)

instance (change : α → β) (rule : Rule α) [Consuming rule] : Consuming (change <$> rule) where
  shorter found := by
    rw [result_map, Option.map_eq_some_iff] at found
    obtain ⟨⟨value, rest⟩, first, same⟩ := found
    cases same
    exact shorter first

instance (rule other : Rule α) [Consuming rule] [Consuming other] :
    Consuming (orElse rule other) where
  shorter found := by
    rw [result_orElse, Option.or_eq_some_iff] at found
    obtain first | ⟨-, second⟩ := found
    · exact shorter first
    · exact shorter second

instance : Consuming (firstOf ([] : List (Rule α))) where
  shorter found := by cases found

instance (rule : Rule α) (others : List (Rule α)) [Consuming rule] [Consuming (firstOf others)] :
    Consuming (firstOf (rule :: others)) := inferInstanceAs (Consuming (orElse _ _))

instance (rule : Rule α) [Consuming rule] : Consuming (spaced rule) :=
  inferInstanceAs (Consuming (spaces >>= fun _ => rule))

/-- A choice reads something when each rule of a family does. -/
theorem firstOf_map {ι : Type} {family : ι → Rule α} {indices : List ι}
    (each : ∀ index ∈ indices, Consuming (family index)) :
    Consuming (firstOf (indices.map family)) := by
  induction indices with
  | nil => exact inferInstanceAs (Consuming (firstOf []))
  | cons index indices ih =>
    rw [List.forall_mem_cons] at each
    have := each.1
    have := ih each.2
    exact inferInstanceAs (Consuming (firstOf (family index :: indices.map family)))

/-- A rule that reads something from every end of a text is repeated up to the end of the text. -/
theorem exists_result_spacedMany {rule : Rule α} [Forward rule] [Consuming rule] {text : List Char}
    (reads : ∀ c rest, c :: rest <:+ text →
      isSpace c = false ∧ ∃ value last, (rule (c :: rest)).result = some (value, last)) :
    ∃ values, (spacedMany rule text).result = some (values, []) := by
  induction length : text.length using Nat.strongRecOn generalizing text with
  | _ size ih =>
    subst length
    cases text with
    | nil =>
      cases first : (rule (strip [])).result with
      | none => exact ⟨[], by rw [spacedMany_of_none first]⟩
      | some pair => exact absurd (shorter first) (Nat.not_lt_zero _)
    | cons c rest =>
      obtain ⟨solid, value, last, found⟩ := reads c rest (List.suffix_refl _)
      have less := shorter found
      have part := Forward.suffix found
      obtain ⟨values, more⟩ := ih _ less (fun d later inside => reads d later (inside.trans part)) rfl
      rw [← strip_cons_of_not solid rest] at found
      exact ⟨value :: values, by rw [spacedMany_of_some found less, more]; rfl⟩

/-! ### The rules of the grammar -/

instance (use : String → α) (rule : Rule (List Char)) [Consuming rule] :
    Consuming (make use rule) := by
  unfold make
  infer_instance

instance : Consuming integer := inferInstanceAs (Consuming (chars _))

instance : Consuming objectName := inferInstanceAs (Consuming (chars _))

instance : Consuming resourcePath := inferInstanceAs (Consuming (chars _))

instance : Consuming fileName := inferInstanceAs (Consuming (chars _))

instance : Consuming colorCode := inferInstanceAs (Consuming (chars _))

instance : Consuming Word.sign := inferInstanceAs (Consuming (oneOf _))

instance : Consuming pointed := by
  unfold pointed
  infer_instance

instance : Consuming number := inferInstanceAs (Consuming (firstOf _))

instance : Consuming signedNumber := by
  unfold signedNumber
  infer_instance

instance : Consuming forceSignedNumber := by
  unfold forceSignedNumber
  infer_instance

instance : Consuming answer := by
  have each : ∀ word ∈ ["on", "true", "yes", "off", "false", "no"], Consuming (Rule.literal word) :=
    fun word member => literal ((by decide :
      ∀ word ∈ ["on", "true", "yes", "off", "false", "no"], word.toList ≠ []) word member)
  exact firstOf_map each

instance : Consuming quotedText := by
  have : Consuming (Rule.literal "\x22") := literal (by decide)
  unfold quotedText
  infer_instance

instance : Consuming text := inferInstanceAs (Consuming (firstOf _))

instance (rule : Rule α) [Consuming rule] : Consuming (whole rule) := by
  unfold whole
  infer_instance

/-- A parameter reads at least its equals sign. -/
instance (key value : Rule (List Char)) (meant : String → ParameterValue) [Forward key]
    [Forward value] : Consuming (Argument.parameter key value meant) := by
  have : Consuming (Rule.literal "=") := literal (by decide)
  unfold Argument.parameter
  infer_instance

instance : Consuming Argument.name := by
  unfold Argument.name
  infer_instance

instance (flag : Flag) : Consuming (Argument.status flag) := by
  have some : flag.word.toList ≠ [] := by cases flag <;> decide
  have off : ∀ word ∈ flag.offWord?, word.toList ≠ [] := by cases flag <;> decide
  have := literal some
  unfold Argument.status
  cases other : flag.offWord? with
  | none => exact inferInstanceAs (Consuming (make _ (Rule.literal flag.word)))
  | some word =>
    have := literal (off word other)
    exact inferInstanceAs (Consuming (make _ (firstOf [Rule.literal flag.word, Rule.literal word])))

instance (use : AxesUse) : Consuming (Argument.axes use) := by
  unfold Argument.axes
  infer_instance

instance : Consuming Argument.tag := inferInstanceAs (Consuming (Argument.parameter _ _ _))

instance : Consuming Argument.mask := inferInstanceAs (Consuming (Argument.parameter _ _ _))

instance : Consuming Argument.time := inferInstanceAs (Consuming (Argument.parameter _ _ _))

instance : Consuming Argument.wait := inferInstanceAs (Consuming (Argument.parameter _ _ _))

instance : Consuming Argument.radius := inferInstanceAs (Consuming (Argument.parameter _ _ _))

instance (key : Rule (List Char)) [Forward key] : Consuming (Argument.integerParameter key) :=
  inferInstanceAs (Consuming (Argument.parameter _ _ _))

instance (key : Rule (List Char)) [Forward key] : Consuming (Argument.numberParameter key) :=
  inferInstanceAs (Consuming (Argument.parameter _ _ _))

instance (key : Rule (List Char)) [Forward key] : Consuming (Argument.colorParameter key) :=
  inferInstanceAs (Consuming (Argument.parameter _ _ _))

instance : Consuming Argument.resource := inferInstanceAs (Consuming (make _ _))

instance : Consuming Argument.target := inferInstanceAs (Consuming (make _ _))

instance (use : LevelUse) : Consuming (Argument.level use) := inferInstanceAs (Consuming (make _ _))

instance : Consuming Argument.texture := inferInstanceAs (Consuming (firstOf _))

instance : Consuming Argument.sound := inferInstanceAs (Consuming (firstOf _))

instance : Consuming Argument.corona := inferInstanceAs (Consuming (firstOf _))

instance : Consuming Argument.color := inferInstanceAs (Consuming (firstOf _))

instance : Consuming Argument.switch := inferInstanceAs (Consuming (firstOf _))

instance : Consuming Argument.move := inferInstanceAs (Consuming (firstOf _))

instance : Consuming Argument.rotate := inferInstanceAs (Consuming (firstOf _))

instance : Consuming Argument.scale := inferInstanceAs (Consuming (firstOf _))

instance : Consuming Argument.light := inferInstanceAs (Consuming (firstOf _))

instance : Consuming Argument.noise := inferInstanceAs (Consuming (firstOf _))

instance : Consuming Argument.opacity := inferInstanceAs (Consuming (firstOf _))

instance : Consuming Argument.intensity := inferInstanceAs (Consuming (firstOf _))

instance : Consuming Argument.picture := inferInstanceAs (Consuming (firstOf _))

instance : Consuming Argument.media := inferInstanceAs (Consuming (firstOf _))

instance : Consuming Argument.say := inferInstanceAs (Consuming (make _ _))

instance : Consuming Argument.seq := inferInstanceAs (Consuming (firstOf _))

instance : Consuming Argument.sign := inferInstanceAs (Consuming (firstOf _))

instance : Consuming Argument.url := inferInstanceAs (Consuming (firstOf _))

instance : Consuming Argument.animate := inferInstanceAs (Consuming (firstOf _))

instance : Consuming animateTail := inferInstanceAs (Consuming (firstOf _))

instance : Consuming absolutePlace := by
  unfold absolutePlace
  infer_instance

instance : Consuming relativePlace := by
  unfold relativePlace
  infer_instance

instance : Consuming altitude := by
  unfold altitude
  infer_instance

instance : Consuming location := by
  unfold location
  infer_instance

end Consuming

end ActionString.Grammar
