import ActionString.ActionMap

/-!
# Merging

The commands of one trigger are merged: those that do nothing are dropped, and of those that concern
the same thing the last takes the place of the first. Across clauses with the same trigger, the
first that has commands left is kept.
-/

namespace ActionString

/-- A trigger with the commands of its clause; a command is missing where two arguments were for
the same field. -/
structure RawAction where
  trigger : Trigger
  commands : List (Option Command)
  deriving DecidableEq, Repr

/-- What a command concerns: commands with equal keys replace one another. -/
structure MergeKey where
  kind : CommandKind
  target : String
  tag : Option UInt64
  deriving DecidableEq, Repr

namespace Command

/-- The key of a command. Naming an object concerns the one object whatever the name. -/
def mergeKey (command : Command) : MergeKey :=
  if command.kind = .name then ⟨.name, "", none⟩
  else ⟨command.kind, command.targetName?.getD "", command.tag?⟩

/-- Whether a command is kept: it is recognised, and has a field unless its kind needs none. -/
def survives (command : Command) : Bool :=
  command.kind ≠ .invalid && (!command.isEmpty || command.kind.allowsEmpty)

end Command

/-- Adds a command to those merged so far. -/
def mergeInto (merged : OrderedMap MergeKey Command) (command : Option Command) :
    OrderedMap MergeKey Command :=
  match command with
  | none => merged
  | some command =>
    if command.survives then merged.insert command.mergeKey command else merged

/-- Merges the commands of one trigger. -/
def mergeCommands (commands : List (Option Command)) : List Command :=
  (commands.foldl mergeInto ∅).values

/-- Adds a clause to those merged so far: its trigger must be new, and commands must be left. -/
def mergeAction (merged : ActionMap) (action : RawAction) : ActionMap :=
  if merged.contains action.trigger then merged
  else
    match mergeCommands action.commands with
    | [] => merged
    | commands => merged.insert action.trigger commands

/-- Merges clauses into an action map. -/
def mergeActions (actions : List RawAction) : ActionMap :=
  actions.foldl mergeAction ∅

/-- The clauses that an action map would be merged from. -/
def ActionMap.toRaw (map : ActionMap) : List RawAction :=
  map.entries.map fun (trigger, commands) => ⟨trigger, commands.map some⟩

end ActionString
