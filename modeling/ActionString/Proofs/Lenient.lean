import ActionString.Proofs.Clauses
import ActionString.Proofs.Consuming

/-!
# Rules that skip spaces

What comes after a command word is read alike whatever spaces stand before it. Only the text that
is left may differ, and only by spaces at its front. Such rules may follow one another, since each
of them skips the spaces that the one before it gave back.
-/

namespace ActionString.Grammar

open Rule Word

variable {α β : Type}

/-- What is read, with the text that is left stripped of spaces. -/
def settle (result : Option (α × List Char)) : Option (α × List Char) :=
  result.map fun found => (found.1, strip found.2)

@[simp] theorem settle_none : settle (none : Option (α × List Char)) = none := rfl

@[simp] theorem settle_some (value : α) (rest : List Char) :
    settle (some (value, rest)) = some (value, strip rest) := rfl

/-- A rule that reads the same with spaces before a text as without them, up to spaces after what
it reads. -/
def Lenient (rule : Rule α) : Prop :=
  ∀ text, settle (rule (strip text)).result = settle (rule text).result

namespace Lenient

/-- Texts that differ by spaces at the front are read alike. -/
theorem settle_eq {rule : Rule α} (lenient : Lenient rule) {first second : List Char}
    (same : strip first = strip second) :
    settle (rule first).result = settle (rule second).result := by
  rw [← lenient first, same, lenient second]

/-- What is read from a text is read from every other that differs by spaces at the front. -/
theorem exists_result {rule : Rule α} (lenient : Lenient rule) {first second : List Char}
    (same : strip first = strip second) {value : α} {rest : List Char}
    (found : (rule first).result = some (value, rest)) :
    ∃ last, (rule second).result = some (value, last) ∧ strip rest = strip last := by
  have settled := lenient.settle_eq same
  rw [found] at settled
  cases result : (rule second).result with
  | none =>
    rw [result] at settled
    cases settled
  | some pair =>
    rw [result] at settled
    obtain ⟨other, last⟩ := pair
    obtain ⟨rfl, equal⟩ := Prod.mk.inj (Option.some.inj settled)
    exact ⟨last, rfl, equal⟩

/-- Where nothing is read from a text, nothing is read from others that differ by spaces. -/
theorem result_eq_none {rule : Rule α} (lenient : Lenient rule) {first second : List Char}
    (same : strip first = strip second) (missed : (rule first).result = none) :
    (rule second).result = none := by
  cases result : (rule second).result with
  | none => rfl
  | some pair =>
    obtain ⟨last, contrary, -⟩ := lenient.exists_result same.symm result
    rw [missed] at contrary
    cases contrary

theorem pure (value : α) : Lenient (Pure.pure value : Rule α) := by
  intro text
  simp

theorem bind {rule : Rule α} {next : α → Rule β} (first : Lenient rule)
    (second : ∀ value, Lenient (next value)) : Lenient (rule >>= next) := by
  intro text
  cases found : (rule (strip text)).result with
  | none =>
    have missed := first.result_eq_none (strip_strip text) found
    rw [result_bind_of_none found, result_bind_of_none missed]
  | some pair =>
    obtain ⟨value, rest⟩ := pair
    obtain ⟨last, whole, same⟩ := first.exists_result (strip_strip text) found
    rw [result_bind_of_some found, result_bind_of_some whole]
    exact (second value).settle_eq same

theorem spaced (rule : Rule α) : Lenient (spaced rule) := by
  intro text
  simp

theorem spacedOptional (rule : Rule α) : Lenient (spacedOptional rule) := by
  intro text
  rw [Rule.spacedOptional, result_optional, result_optional, spaced_eq, spaced_eq, strip_strip]
  cases (rule (strip text)).result <;> simp

/-- A repetition skips spaces before the first time, too. -/
theorem spacedMany (rule : Rule α) [Consuming rule] : Lenient (spacedMany rule) := by
  intro text
  have again : (rule (strip (strip text))).result = (rule (strip text)).result := by
    rw [strip_strip]
  cases found : (rule (strip text)).result with
  | none =>
    rw [spacedMany_of_none found, spacedMany_of_none (again.trans found)]
    simp
  | some pair =>
    have shorter := Consuming.shorter found
    have bound := (strip_suffix text).length_le
    rw [spacedMany_of_some found (by omega), spacedMany_of_some (again.trans found) shorter]

/-- The elements after separators are found whatever spaces stand before the separators. -/
theorem followers {separator : String} {d : Char} (single : separator.toList = [d])
    (element : Rule α) [Forward element] : Lenient (followers separator element) := by
  intro text
  have passed : passOver d (strip text) = passOver d text := passOver_strip text
  by_cases front : (strip text).head? = some d
  · cases found : (element (passOver d text)).result with
    | none =>
      rw [result_followers_of_none single found,
        result_followers_of_none single (by rw [passed, found])]
      simp
    | some pair =>
      rw [result_followers_of_some single front found,
        result_followers_of_some single (by rw [strip_strip, front]) (by rw [passed, found])]
  · rw [result_followers_of_ne single element front,
      result_followers_of_ne single element (by rwa [strip_strip])]
    simp

theorem morePhrases : Lenient morePhrases :=
  bind (followers rfl phrase) fun _ => bind (spacedOptional _) fun _ => pure _

/-- What comes after the word of a command skips spaces. -/
theorem exists_body {kind : CommandKind} (known : kind ∈ CommandKind.recognized) :
    ∃ body, phraseOf kind = (keyword kind.word >>= fun _ => body) ∧ Lenient body := by
  have arguments (argument : Rule Argument) [Consuming argument] :
      Lenient (Rule.spacedMany argument >>= fun given => Pure.pure (Phrase.arguments kind given)) :=
    bind (spacedMany argument) fun _ => pure _
  rw [CommandKind.mem_recognized_iff] at known
  cases kind
  case invalid => exact absurd rfl known
  case examine => exact ⟨_, rfl, pure _⟩
  case teleport =>
    exact ⟨_, rfl, bind (spacedOptional _) fun _ => bind (spacedOptional _) fun _ => pure _⟩
  case warp => exact ⟨_, rfl, bind (spaced _) fun _ => pure _⟩
  case animate =>
    exact ⟨_, rfl, bind (spacedMany _) fun _ => bind (spaced _) fun _ => bind (spacedMany _)
      fun _ => bind (spaced _) fun _ => bind (spacedMany _) fun _ => pure _⟩
  all_goals exact ⟨_, rfl, arguments _⟩

end Lenient

end ActionString.Grammar
