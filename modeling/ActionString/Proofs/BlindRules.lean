import ActionString.Proofs.Blind
import ActionString.Proofs.Separated
import ActionString.Proofs.Worded

/-!
# The rules of the grammar and separators

A rule that is made of words is blind to both separators in texts without quotes, since no
separator is a part of a word. So is every rule for a command. A clause contains commas of its own
and is blind to semicolons only.
-/

namespace ActionString.Grammar

open Rule Word

/-- No separator is a part of a word without ends. -/
theorem Unbroken.spare {word : String} (unbroken : Unbroken word) : Stops.both.Spare word :=
  fun w member c stop => unbroken w member c (.tail _ stop)

/-- Classes have no separators. -/
theorem refused_accepts (kind : CharClass) : Stops.both.Refused kind.accepts :=
  fun c stop => accepts_of_mem_ends kind c (.tail _ stop)

/-- Where there are no quotes, a quoted text is not read. -/
theorem result_quote_of_unquoted {text : List Char} (unquoted : ∀ c ∈ text, c ≠ '\x22') :
    (literal "\x22" text).result = none := by
  cases text with
  | nil => rfl
  | cons c rest =>
    refine result_literal_of_ne (d := '\x22') rfl fun head => unquoted c (.head _) ?_
    simpa using head

namespace Blind

theorem quotedText : Blind (· ≠ '\x22') .both quotedText := by
  intro front tail unquoted ends
  have mark : Blind (· ≠ '\x22') .both (Rule.literal "\x22") := literal (by decide)
  have missed := result_quote_of_unquoted unquoted
  apply outcome_ext
  · simp [Word.quotedText, result_bind, mark unquoted ends, Outcome.extend, missed]
  · simp [Word.quotedText, trace_bind, mark unquoted ends, Outcome.extend, missed]

/-- A rule that is made of words is blind to separators where quoted text is, if it has any. -/
theorem of_worded_of_quoted {α : Type} {quotes : Prop} {quiet : Char → Prop}
    (quoted : quotes → Blind quiet .both Word.quotedText) {rule : Rule α} (worded : Worded quotes rule) :
    Blind quiet .both rule := by
  induction worded with
  | pure value => exact pure value
  | nil => exact nil
  | literal unbroken => exact literal unbroken.spare
  | keyword unbroken => exact keyword unbroken.spare
  | chars kind => exact chars (refused_accepts kind)
  | oneOf kind => exact oneOf (refused_accepts kind)
  | run kind => exact run (refused_accepts kind)
  | quotedText allowed => exact quoted allowed
  | spaces => exact spaces
  | notAhead _ ih => exact notAhead ih
  | bind worded _ first second =>
    have := Forward.of_built worded.built
    exact bind first second
  | orElse _ _ first second => exact orElse first second
  | spacedMany worded ih =>
    have := Forward.of_built worded.built
    exact spacedMany ih

/-- A rule that is made of words is blind to separators in texts without quotes. -/
theorem of_worded {α : Type} {rule : Rule α} (worded : Worded True rule) :
    Blind (· ≠ '\x22') .both rule :=
  of_worded_of_quoted (fun _ => quotedText) worded

theorem unrecognized : Blind (· ≠ '\x22') .both unrecognized :=
  bind (run (by decide)) fun _ => pure _

/-- A command in a text without quotes is read alike before a separator and before the end. -/
theorem phrase : Blind (· ≠ '\x22') .both phrase := by
  have choice {kinds : List CommandKind} (known : ∀ kind ∈ kinds, kind ∈ CommandKind.recognized) :
      Blind (· ≠ '\x22') .both (firstOf ((kinds ++ [CommandKind.invalid]).map phraseOf)) := by
    induction kinds with
    | nil => exact cons unrecognized nil
    | cons kind kinds ih =>
      rw [List.forall_mem_cons] at known
      exact cons (of_worded (.phraseOf known.1)) (ih known.2)
  exact @choice CommandKind.recognized fun _ member => member

theorem trigger : Blind (· ≠ '\x22') .both trigger := of_worded .trigger

/-- A clause in a text without quotes is read alike before a semicolon and before the end. -/
theorem clause : Blind (· ≠ '\x22') .semicolon clause :=
  bind (trigger.mono (by decide)) fun _ =>
    bind (separated (by decide) (phrase.mono (by decide))) fun _ =>
      bind (spacedOptional (literal (by decide))) fun _ => pure _

end Blind

/-- A clause in a text without quotes is read up to a semicolon as it is up to the end. -/
theorem result_clause_append {front tail : List Char} (unquoted : ∀ c ∈ front, c ≠ '\x22')
    (ends : Stops.semicolon.At tail) :
    (clause (front ++ tail)).result =
      (clause front).result.map fun found => (found.1, found.2 ++ tail) := by
  rw [Blind.clause unquoted ends]
  rfl

end ActionString.Grammar
