import ActionString.Command.Basic
import ActionString.Trigger

/-!
# Action maps

An action map binds triggers to lists of commands, in the order in which the triggers came up.
-/

namespace ActionString

/-- Triggers with their commands. -/
abbrev ActionMap := OrderedMap Trigger (List Command)

namespace ActionMap

/-- Whether no trigger is bound to an empty list. -/
def NoneEmpty (map : ActionMap) : Prop :=
  ∀ commands ∈ map.values, commands ≠ []

end ActionMap

end ActionString
