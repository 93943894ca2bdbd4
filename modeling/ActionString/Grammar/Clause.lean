import ActionString.Grammar.Phrase

/-!
# Clauses

An action string is a list of clauses separated by semicolons, and a clause is a trigger with a
list of commands separated by commas. Separators may be repeated between items, and one may stand
after the last.
-/

namespace ActionString.Grammar

open Rule

/-- The word of a trigger. -/
def trigger : Rule Trigger :=
  firstOf (Trigger.all.map fun trigger => do
    let _ ← keyword trigger.word
    return trigger)

/-- A trigger with its commands. -/
def clause : Rule Clause := do
  let trigger ← trigger
  let phrases ← separated "," phrase
  let _ ← spacedOptional (literal ",")
  return ⟨trigger, phrases⟩

/-- The clauses of a whole text. -/
def clauses : Rule (List Clause) := do
  let clauses ← separated ";" clause
  let _ ← spacedOptional (literal ";")
  spaces
  endOfInput
  return clauses

/-- Reads a whole text, or tells how far it was understood. -/
def read (text : List Char) : Except Failure (List Clause) :=
  let outcome := clauses text
  match outcome.result with
  | some (clauses, _) => .ok clauses
  | none => .error (Failure.ofTrace (Text.byteSize text) outcome.trace)

end ActionString.Grammar
