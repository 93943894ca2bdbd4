import ActionString.Proofs.Words
import ActionString.Text.Lowercase

/-!
# Values of rules

What can be said of every value that a rule reads, whatever the text. Such a property passes through
the combinators: a list has members that the rule for members reads, a choice has a value of one of
its rules.
-/

namespace ActionString.Grammar

open Rule

/-- A rule that reads only values with a property. -/
def Yields {α : Type} (property : α → Prop) (rule : Rule α) : Prop :=
  ∀ ⦃text rest : List Char⦄ ⦃value : α⦄, (rule text).result = some (value, rest) → property value

namespace Yields

variable {α β : Type} {property weaker : α → Prop} {final : β → Prop}

theorem mono {rule : Rule α} (yields : Yields property rule)
    (implies : ∀ value, property value → weaker value) : Yields weaker rule :=
  fun _ _ _ found => implies _ (yields found)

theorem pure {value : α} (holds : property value) :
    Yields property (Pure.pure value : Rule α) := by
  intro text rest other found
  cases found
  exact holds

/-- What comes after a rule may rely on the property of its value. -/
theorem bind {rule : Rule α} {next : α → Rule β} (first : Yields property rule)
    (second : ∀ value, property value → Yields final (next value)) :
    Yields final (rule >>= next) := by
  intro text rest value found
  rw [result_bind, Option.bind_eq_some_iff] at found
  obtain ⟨⟨middle, between⟩, start, finish⟩ := found
  exact second middle (first start) finish

/-- What comes after a rule may not need anything of its value. -/
theorem after (rule : Rule α) {next : α → Rule β} (second : ∀ value, Yields final (next value)) :
    Yields final (rule >>= next) := by
  have any : Yields (fun _ => True) rule := fun _ _ _ _ => trivial
  exact any.bind fun value _ => second value

theorem map {change : α → β} {rule : Rule α}
    (yields : Yields (fun value => final (change value)) rule) : Yields final (change <$> rule) :=
  yields.bind fun _ holds => pure holds

theorem orElse {rule other : Rule α} (first : Yields property rule)
    (second : Yields property other) : Yields property (orElse rule other) := by
  intro text rest value found
  rw [result_orElse, Option.or_eq_some_iff] at found
  obtain applies | ⟨-, otherwise⟩ := found
  · exact first applies
  · exact second otherwise

theorem nil : Yields property (firstOf []) := by
  intro text rest value found
  cases found

theorem cons {rule : Rule α} {others : List (Rule α)} (first : Yields property rule)
    (second : Yields property (firstOf others)) : Yields property (firstOf (rule :: others)) :=
  orElse first second

/-- A choice among the rules of a family. -/
theorem firstOf_map {ι : Type} {family : ι → Rule α} {indices : List ι}
    (each : ∀ index ∈ indices, Yields property (family index)) :
    Yields property (firstOf (indices.map family)) := by
  induction indices with
  | nil => exact nil
  | cons index indices ih =>
    rw [List.forall_mem_cons] at each
    exact cons each.1 (ih each.2)

theorem optional {rule : Rule α} (yields : Yields property rule) :
    Yields (fun found => ∀ value ∈ found, property value) (optional rule) := by
  refine orElse (map (yields.mono ?_)) (pure ?_)
  · intro value holds other same
    cases same
    exact holds
  · intro other same
    cases same

theorem spaced {rule : Rule α} (yields : Yields property rule) : Yields property (spaced rule) := by
  intro text rest value found
  rw [spaced_eq] at found
  exact yields found

theorem spacedOptional {rule : Rule α} (yields : Yields property rule) :
    Yields (fun found => ∀ value ∈ found, property value) (spacedOptional rule) :=
  yields.spaced.optional

theorem spacedMany {rule : Rule α} (yields : Yields property rule) :
    Yields (fun values => ∀ value ∈ values, property value) (spacedMany rule) := by
  intro text
  induction text using repeat_induction fun text => rule (strip text) with
  | stop text missed =>
    intro rest values found
    rw [spacedMany_of_none missed] at found
    cases found
    exact List.forall_mem_nil _
  | idle text value middle first same =>
    intro rest values found
    rw [spacedMany_of_idle first same] at found
    cases found
    exact List.forall_mem_singleton.mpr (yields first)
  | step text value middle first shorter ih =>
    intro rest values found
    rw [spacedMany_of_some first shorter, Option.map_eq_some_iff] at found
    obtain ⟨⟨others, last⟩, more, same⟩ := found
    cases same
    exact List.forall_mem_cons.mpr ⟨yields first, ih more⟩

theorem followers {separator : String} {element : Rule α} (yields : Yields property element) :
    Yields (fun values => ∀ value ∈ values, property value) (followers separator element) := by
  have each : Yields property (follower separator element) := after _ fun _ => yields.spaced
  intro text
  induction text using repeat_induction (follower separator element) with
  | stop text missed =>
    intro rest values found
    rw [followers_of_none missed] at found
    cases found
    exact List.forall_mem_nil _
  | idle text value middle first same =>
    intro rest values found
    rw [followers_of_idle first same] at found
    cases found
    exact List.forall_mem_singleton.mpr (each first)
  | step text value middle first shorter ih =>
    intro rest values found
    rw [followers_of_some first shorter, Option.map_eq_some_iff] at found
    obtain ⟨⟨others, last⟩, more, same⟩ := found
    cases same
    exact List.forall_mem_cons.mpr ⟨each first, ih more⟩

theorem separated {separator : String} {element : Rule α} (yields : Yields property element) :
    Yields (fun values => ∀ value ∈ values, property value) (separated separator element) := by
  refine yields.spacedOptional.bind fun first holds => ?_
  cases first with
  | none => exact pure (List.forall_mem_nil _)
  | some value =>
    exact yields.followers.bind fun others more =>
      pure (List.forall_mem_cons.mpr ⟨holds value rfl, more⟩)

/-- A fixed text is read as it is. -/
theorem literal (word : String) : Yields (· = word.toList) (literal word) :=
  fun _ _ _ found => (eq_append_of_result_literal found).1

/-- A fixed word of small ASCII letters is its own lower case. -/
theorem lowercase_literal {word : String}
    (small : ∀ c ∈ word.toList, c.toNat < 0x80 ∧ c.toLower = c) :
    Yields (fun spelt => Text.lowercase (String.ofList spelt) = word) (Rule.literal word) :=
  (literal word).mono fun _ same => Text.lowercase_of_map_toLower small (congrArg _ same)

/-- A word of small ASCII letters is the lower case of what is read for it. -/
theorem lowercase_keyword {word : String}
    (small : ∀ c ∈ word.toList, c.toNat < 0x80 ∧ c.toLower = c) :
    Yields (fun spelt => Text.lowercase (String.ofList spelt) = word) (keyword word) := by
  intro text rest spelt found
  have folded := Text.map_toLower_of_stripFolded (stripFolded_of_result_keyword found)
  exact Text.lowercase_of_map_toLower small folded

end Yields

end ActionString.Grammar
