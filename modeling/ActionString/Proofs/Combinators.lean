import ActionString.Grammar.Rule

/-!
# What the combinators do to a text

Each combinator is described by two equations, one for what it reads and one for the trace that it
leaves. Proofs about rules use these equations and the step lemmas of the repetitions, and do not
unfold the combinators.
-/

namespace ActionString.Grammar.Rule

variable {α β : Type}

/-- An outcome is known from what is read and from the trace. -/
theorem outcome_ext {first second : Outcome α} (result : first.result = second.result)
    (trace : first.trace = second.trace) : first = second := by
  cases first
  cases second
  cases result
  cases trace
  rfl

@[simp] theorem result_pure (value : α) (text : List Char) :
    ((pure value : Rule α) text).result = some (value, text) := rfl

@[simp] theorem trace_pure (value : α) (text : List Char) :
    ((pure value : Rule α) text).trace = [] := rfl

/-- What a sequence reads is read by the second rule after the first. -/
theorem result_bind (rule : Rule α) (next : α → Rule β) (text : List Char) :
    ((rule >>= next) text).result =
      (rule text).result.bind fun found => (next found.1 found.2).result := by
  change (andThen rule next text).result = _
  cases found : (rule text).result with
  | none => rw [andThen_of_none found]; rfl
  | some pair => rw [andThen_of_some found]; rfl

/-- Where the first rule does not apply, the sequence does not. -/
theorem result_bind_of_none {rule : Rule α} {text : List Char}
    (missed : (rule text).result = none) (next : α → Rule β) :
    ((rule >>= next) text).result = none := by
  rw [result_bind, missed]
  rfl

/-- Where the first rule applies, the sequence goes on with the second. -/
theorem result_bind_of_some {rule : Rule α} {text rest : List Char} {value : α}
    (found : (rule text).result = some (value, rest)) (next : α → Rule β) :
    ((rule >>= next) text).result = (next value rest).result := by
  rw [result_bind, found]
  rfl

/-- A sequence leaves the trace of the first rule, and that of the second where it is reached. -/
theorem trace_bind (rule : Rule α) (next : α → Rule β) (text : List Char) :
    ((rule >>= next) text).trace = (rule text).trace ++
      (rule text).result.elim [] fun found => (next found.1 found.2).trace := by
  change (andThen rule next text).trace = _
  cases found : (rule text).result with
  | none => rw [andThen_of_none found]; exact (List.append_nil _).symm
  | some pair => rw [andThen_of_some found]; rfl

/-- A choice reads what its first rule reads, or else what the other reads. -/
theorem result_orElse (rule other : Rule α) (text : List Char) :
    (orElse rule other text).result = (rule text).result.or (other text).result := by
  cases found : (rule text).result with
  | none => rw [orElse_of_none found]; rfl
  | some pair => rw [orElse_of_some found]; rfl

/-- A choice leaves the trace of its first rule, and that of the other where it is tried. -/
theorem trace_orElse (rule other : Rule α) (text : List Char) :
    (orElse rule other text).trace = (rule text).trace ++
      (rule text).result.elim (other text).trace fun _ => [] := by
  cases found : (rule text).result with
  | none => rw [orElse_of_none found]; rfl
  | some pair => rw [orElse_of_some found]; exact (List.append_nil _).symm

@[simp] theorem result_firstOf_nil (text : List Char) :
    (firstOf ([] : List (Rule α)) text).result = none := rfl

/-- The first of several rules that applies is read. -/
theorem result_firstOf_cons (rule : Rule α) (others : List (Rule α)) (text : List Char) :
    (firstOf (rule :: others) text).result = (rule text).result.or (firstOf others text).result :=
  result_orElse rule (firstOf others) text

/-- Changing the value does not change what is read. -/
theorem result_map (change : α → β) (rule : Rule α) (text : List Char) :
    ((change <$> rule) text).result =
      (rule text).result.map fun found => (change found.1, found.2) := by
  change ((rule >>= fun value => pure (change value)) text).result = _
  rw [result_bind]
  cases (rule text).result <;> rfl

/-- An optional rule always applies. -/
theorem result_optional (rule : Rule α) (text : List Char) :
    (optional rule text).result = some
      ((rule text).result.elim (none, text) fun found => (some found.1, found.2)) := by
  rw [optional, result_orElse, result_map]
  cases (rule text).result <;> rfl

/-- A text without the spaces at its front. -/
def strip (text : List Char) : List Char := text.dropWhile isSpace

@[simp] theorem result_spaces (text : List Char) :
    (spaces text).result = some ((), strip text) := rfl

/-- Skipping spaces and reading is reading the stripped text. -/
@[simp] theorem spaced_eq (rule : Rule α) (text : List Char) :
    spaced rule text = rule (strip text) :=
  outcome_ext (by rw [spaced, result_bind]; rfl) (by rw [spaced, trace_bind]; rfl)

/-- What is left after spaces are stripped is a part of the text. -/
theorem strip_suffix (text : List Char) : strip text <:+ text := List.dropWhile_suffix _

/-- A space at the front is stripped. -/
theorem strip_cons_of_isSpace {c : Char} (space : isSpace c = true) (text : List Char) :
    strip (c :: text) = strip text :=
  List.dropWhile_cons_of_pos space

/-- A text that begins with no space is not changed by stripping. -/
theorem strip_cons_of_not {c : Char} (solid : isSpace c = false) (text : List Char) :
    strip (c :: text) = c :: text := by
  rw [strip, List.dropWhile_cons_of_neg (by simp [solid])]

/-- A stripped text does not begin with a space. -/
theorem isSpace_of_strip {c : Char} {text rest : List Char} (front : strip text = c :: rest) :
    isSpace c = false := by
  have never := List.head?_dropWhile_not isSpace text
  rw [show text.dropWhile isSpace = c :: rest from front] at never
  simpa using never

/-- Stripping twice is stripping once. -/
@[simp] theorem strip_strip (text : List Char) : strip (strip text) = strip text := by
  cases front : strip text with
  | nil => rfl
  | cons c rest => exact strip_cons_of_not (isSpace_of_strip front) rest

/-- A repetition stops where its rule does not apply. -/
theorem spacedMany_of_none {rule : Rule α} {text : List Char}
    (missed : (rule (strip text)).result = none) :
    spacedMany rule text = ⟨some ([], text), (rule (strip text)).trace⟩ := by
  rw [spacedMany]
  simp only [spaced_eq, missed]

/-- A repetition goes on after its rule has read something. -/
theorem spacedMany_of_some {rule : Rule α} {text rest : List Char} {value : α}
    (found : (rule (strip text)).result = some (value, rest))
    (shorter : rest.length < text.length) :
    spacedMany rule text =
      ⟨(spacedMany rule rest).result.map fun (values, last) => (value :: values, last),
        (rule (strip text)).trace ++ (spacedMany rule rest).trace⟩ := by
  rw [spacedMany]
  simp only [spaced_eq, found, shorter, if_true]

/-- A repetition ends after its rule has read nothing. -/
theorem spacedMany_of_idle {rule : Rule α} {text rest : List Char} {value : α}
    (found : (rule (strip text)).result = some (value, rest))
    (idle : ¬rest.length < text.length) :
    spacedMany rule text = ⟨some ([value], rest), (rule (strip text)).trace⟩ := by
  rw [spacedMany]
  simp only [spaced_eq, found, idle, if_false]

/-- A separator with the element after it. -/
def follower (separator : String) (element : Rule α) : Rule α :=
  separators separator >>= fun _ => spaced element

/-- A list stops where no separator with an element follows. -/
theorem followers_of_none {separator : String} {element : Rule α} {text : List Char}
    (missed : (follower separator element text).result = none) :
    followers separator element text =
      ⟨some ([], text), (follower separator element text).trace⟩ := by
  rw [followers]
  change (andThen (separators separator) (fun _ => spaced element) text).result = none at missed
  simp only [missed]
  rfl

/-- A list goes on after a separator with an element. -/
theorem followers_of_some {separator : String} {element : Rule α} {text rest : List Char}
    {value : α} (found : (follower separator element text).result = some (value, rest))
    (shorter : rest.length < text.length) :
    followers separator element text =
      ⟨(followers separator element rest).result.map fun (values, last) => (value :: values, last),
        (follower separator element text).trace ++ (followers separator element rest).trace⟩ := by
  rw [followers]
  change (andThen (separators separator) (fun _ => spaced element) text).result = _ at found
  simp only [found, shorter, if_true]
  rfl

/-- A list ends after a follower that read nothing. -/
theorem followers_of_idle {separator : String} {element : Rule α} {text rest : List Char}
    {value : α} (found : (follower separator element text).result = some (value, rest))
    (idle : ¬rest.length < text.length) :
    followers separator element text =
      ⟨some ([value], rest), (follower separator element text).trace⟩ := by
  rw [followers]
  change (andThen (separators separator) (fun _ => spaced element) text).result = _ at found
  simp only [found, idle, if_false]
  rfl

/-- A rule is repeated as long as it reads something. What holds of the texts where it does not
apply or reads nothing, and of a text when it holds of what the rule leaves, holds of all texts. -/
theorem repeat_induction (rule : Rule α) {motive : List Char → Prop}
    (stop : ∀ text, (rule text).result = none → motive text)
    (idle : ∀ text value rest, (rule text).result = some (value, rest) →
      ¬rest.length < text.length → motive text)
    (step : ∀ text value rest, (rule text).result = some (value, rest) →
      rest.length < text.length → motive rest → motive text)
    (text : List Char) : motive text := by
  induction length : text.length using Nat.strongRecOn generalizing text with
  | _ size ih =>
    subst length
    cases first : (rule text).result with
    | none => exact stop text first
    | some pair =>
      obtain ⟨value, rest⟩ := pair
      by_cases shorter : rest.length < text.length
      · exact step text value rest first shorter (ih _ shorter rest rfl)
      · exact idle text value rest first shorter

end ActionString.Grammar.Rule
