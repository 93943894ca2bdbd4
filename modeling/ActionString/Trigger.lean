import ActionString.Error
import ActionString.Text.Folding

/-!
# Triggers

A trigger is the event that a list of commands waits for. Its word is read in any ASCII case and
written in lower case.
-/

namespace ActionString

/-- An event that fires the commands bound to it. -/
inductive Trigger where
  /-- The object is loaded into the scene. -/
  | create
  /-- A user clicks the object. -/
  | activate
  /-- An avatar collides with the object. -/
  | bump
  /-- An animation finishes. -/
  | adone
  /-- The event with the word `end`. -/
  | ends
  deriving DecidableEq, Repr, Inhabited

namespace Trigger

/-- All triggers, in the order in which the grammar tries them. -/
def all : List Trigger := [create, activate, bump, adone, ends]

/-- The word of a trigger. -/
def word : Trigger → String
  | create => "create"
  | activate => "activate"
  | bump => "bump"
  | adone => "adone"
  | ends => "end"

/-- The trigger with a given word, in any ASCII case. -/
def ofWord? (word : String) : Option Trigger :=
  all.find? fun trigger => Text.sameFolded trigger.word word

/-- Reads the word of a trigger. -/
def ofWord (word : String) : Except Error Trigger :=
  match ofWord? word with
  | some trigger => .ok trigger
  | none => .error (.unknownTrigger word)

/-- Every trigger is in the list of all triggers. -/
theorem mem_all (trigger : Trigger) : trigger ∈ all := by
  cases trigger <;> decide

end Trigger

end ActionString
