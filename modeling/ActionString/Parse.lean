import ActionString.Diagnostic
import ActionString.Grammar.Clause
import ActionString.Meaning.Phrase
import ActionString.Merge

/-!
# Reading action strings

An action string is cleaned of stray controls, read into clauses, given its meaning clause by
clause, and merged into an action map. A text that cannot be read gives a diagnostic.
-/

namespace ActionString

/-- Whether a character is one of the two controls that are removed before reading. -/
def isStray (c : Char) : Bool := c = '\x7f' || c = '\x80'

/-- A text without stray controls. -/
def clean (source : List Char) : List Char :=
  source.filter fun c => !isStray c

/-- The meaning of a clause, before merging. -/
def Clause.rawAction (clause : Clause) : RawAction :=
  ⟨clause.trigger, clause.phrases.map Phrase.command?⟩

/-- The diagnostic of a failure in a text. -/
def Grammar.Failure.diagnostic (failure : Grammar.Failure) (source : List Char) : Diagnostic :=
  Diagnostic.atOffset source failure.offset failure.expected

/-- Reads an action string clause by clause, without merging. -/
def parseRaw (source : String) : Except Diagnostic (List RawAction) :=
  let text := clean source.toList
  match Grammar.read text with
  | .ok clauses => .ok (clauses.map Clause.rawAction)
  | .error failure => .error (failure.diagnostic text)

/-- Reads an action string. -/
def tryParse (source : String) : Except Diagnostic ActionMap :=
  (parseRaw source).map mergeActions

/-- Reads an action string; one that cannot be read stands for no action. -/
def parse (source : String) : ActionMap :=
  match tryParse source with
  | .ok map => map
  | .error _ => ∅

/-- Why an action string cannot be read: a report, or nothing when it can. -/
def explain (source : String) : String :=
  let text := clean source.toList
  match Grammar.read text with
  | .ok _ => ""
  | .error failure => (failure.diagnostic text).report

end ActionString
