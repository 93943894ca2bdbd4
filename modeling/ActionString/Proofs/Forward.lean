import ActionString.Proofs.Built
import ActionString.Proofs.Combinators
import Mathlib.Data.List.Infix

/-!
# Rules read forward

What a rule leaves of a text is always an end of that text. The property passes through every
combinator, so it holds of each rule that is made of them.
-/

namespace ActionString.Grammar

open Rule Word

/-- A rule that leaves an end of the text that it reads. -/
class Forward {α : Type} (rule : Rule α) : Prop where
  suffix : ∀ {text rest : List Char} {value : α},
    (rule text).result = some (value, rest) → rest <:+ text

namespace Forward

variable {α β : Type}

/-- No rule leaves more than it was given. -/
theorem length_le {rule : Rule α} [Forward rule] {text rest : List Char} {value : α}
    (found : (rule text).result = some (value, rest)) : rest.length ≤ text.length :=
  (suffix found).length_le

instance (value : α) : Forward (pure value : Rule α) where
  suffix found := by
    cases found
    exact List.suffix_refl _

instance (value : α) : Forward (succeed value) where
  suffix found := by
    cases found
    exact List.suffix_refl _

instance : Forward (fail : Rule α) where
  suffix found := by cases found

instance (rule : Rule α) (next : α → Rule β) [Forward rule] [∀ value, Forward (next value)] :
    Forward (rule >>= next) where
  suffix found := by
    rw [result_bind, Option.bind_eq_some_iff] at found
    obtain ⟨⟨value, middle⟩, first, second⟩ := found
    exact (suffix second).trans (suffix first)

instance (change : α → β) (rule : Rule α) [Forward rule] : Forward (change <$> rule) where
  suffix found := by
    rw [result_map, Option.map_eq_some_iff] at found
    obtain ⟨⟨value, rest⟩, first, same⟩ := found
    cases same
    exact suffix first

instance (rule other : Rule α) [Forward rule] [Forward other] : Forward (orElse rule other) where
  suffix found := by
    rw [result_orElse, Option.or_eq_some_iff] at found
    obtain first | ⟨-, second⟩ := found
    · exact suffix first
    · exact suffix second

instance (rule : Rule α) (others : List (Rule α)) [Forward rule] [Forward (firstOf others)] :
    Forward (firstOf (rule :: others)) := inferInstanceAs (Forward (orElse _ _))

instance (rule : Rule α) [Forward rule] : Forward (optional rule) :=
  inferInstanceAs (Forward (orElse _ _))

/-- A rule by a plain function goes forward when the function does. -/
theorem of_expecting (expected : Expected) {read : List Char → Option (α × List Char)}
    (forward : ∀ {text rest value}, read text = some (value, rest) → rest <:+ text) :
    Forward (expecting expected read) where
  suffix := by
    intro text rest value found
    rw [expecting] at found
    split at found
    · rename_i pair readSome
      cases found
      exact forward readSome
    · cases found

instance (word : String) : Forward (literal word) := of_expecting _ fun found => by
  rw [Option.map_eq_some_iff] at found
  obtain ⟨rest, front, same⟩ := found
  cases same
  rw [List.isPrefixOf?_eq_some_iff_append_eq] at front
  exact ⟨_, front⟩

instance (word : String) : Forward (keyword word) :=
  of_expecting _ fun found => ⟨_, (Text.eq_append_of_stripFolded found).symm⟩

instance (kind : CharClass) : Forward (chars kind) := of_expecting _ fun found => by
  split at found
  · cases found
  · cases found
    exact List.dropWhile_suffix _

instance (kind : CharClass) : Forward (oneOf kind) := of_expecting _ fun found => by
  split at found
  · cases found
  · split at found
    · cases found
      exact List.suffix_cons _ _
    · cases found

instance (accepts : Char → Bool) : Forward (Rule.run accepts) where
  suffix found := by
    cases found
    exact List.dropWhile_suffix _

instance : Forward endOfInput := of_expecting _ fun found => by
  split at found
  · cases found
    exact List.nil_suffix
  · cases found

instance (rule : Rule α) : Forward (notAhead rule) where
  suffix found := by rw [eq_of_notAhead found]

instance : Forward spaces where
  suffix found := by
    cases found
    exact strip_suffix _

instance (rule : Rule α) [Forward rule] : Forward (spaced rule) where
  suffix found := by
    rw [spaced_eq] at found
    exact (suffix found).trans (strip_suffix _)

instance (rule : Rule α) [Forward rule] : Forward (spacedOptional rule) :=
  inferInstanceAs (Forward (optional _))

instance (rule : Rule α) [Forward rule] : Forward (spacedMany rule) where
  suffix := by
    intro text
    induction text using repeat_induction fun text => rule (strip text) with
    | stop text missed =>
      intro rest values found
      rw [spacedMany_of_none missed] at found
      cases found
      exact List.suffix_refl _
    | idle text value middle first same =>
      intro rest values found
      rw [spacedMany_of_idle first same] at found
      cases found
      exact (suffix first).trans (strip_suffix text)
    | step text value middle first shorter ih =>
      intro rest values found
      rw [spacedMany_of_some first shorter, Option.map_eq_some_iff] at found
      obtain ⟨⟨others, last⟩, more, same⟩ := found
      cases same
      exact (ih more).trans ((suffix first).trans (strip_suffix text))

instance (separator : String) : Forward (separators separator) := by
  unfold separators
  infer_instance

instance (separator : String) (element : Rule α) [Forward element] :
    Forward (follower separator element) := by
  unfold follower
  infer_instance

instance (separator : String) (element : Rule α) [Forward element] :
    Forward (followers separator element) where
  suffix := by
    intro text
    induction text using repeat_induction (follower separator element) with
    | stop text missed =>
      intro rest values found
      rw [followers_of_none missed] at found
      cases found
      exact List.suffix_refl _
    | idle text value middle first same =>
      intro rest values found
      rw [followers_of_idle first same] at found
      cases found
      exact suffix first
    | step text value middle first shorter ih =>
      intro rest values found
      rw [followers_of_some first shorter, Option.map_eq_some_iff] at found
      obtain ⟨⟨others, last⟩, more, same⟩ := found
      cases same
      exact (ih more).trans (suffix first)

instance (separator : String) (element : Rule α) [Forward element] :
    Forward (separated separator element) := by
  have next (first : Option α) : Forward (match first with
      | none => pure []
      | some first => do return first :: (← followers separator element) : Rule (List α)) := by
    cases first <;> infer_instance
  unfold separated
  infer_instance

/-- A rule that is made of combinators reads forward. -/
theorem of_built {rule : Rule α} (built : Built rule) : Forward rule := by
  induction built <;> infer_instance

instance (priority := low) (rule : Rule α) [built : Built rule] : Forward rule := of_built built

end Forward

end ActionString.Grammar
