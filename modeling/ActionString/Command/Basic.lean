import ActionString.Command.Kind
import ActionString.Command.Value
import ActionString.OrderedMap

/-!
# Commands

A command is a kind with named fields in the order in which they were set. Setting a field that is
there already is an error; replacing and renaming keep the place of a field.
-/

namespace ActionString

/-- A command with its fields. -/
structure Command where
  kind : CommandKind
  fields : OrderedMap String Value
  deriving DecidableEq, Repr

namespace Command

/-- The field with the lower-case name of the object that a command applies to. -/
def targetField : String := "targetName"

/-- The field with the tag of the surface that a command applies to. -/
def tagField : String := "tag"

/-- The field with the text of an unrecognised command. -/
def textField : String := "commandText"

/-- The command of a kind without fields. -/
def ofKind (kind : CommandKind) : Command := ⟨kind, ∅⟩

/-- Gives a field a value, in place of the value that it may have. -/
def replace (command : Command) (field : String) (value : Value) : Command :=
  { command with fields := command.fields.insert field value }

/-- The command that keeps text which begins with no command word. -/
def unrecognized (text : String) : Command :=
  (ofKind .invalid).replace textField (.text text)

/-- Gives a value to a field that has none yet. -/
def set (command : Command) (field : String) (value : Value) : Except Error Command :=
  if command.fields.contains field then .error (.duplicateField field)
  else .ok (command.replace field value)

/-- Renames a field in place, unless the new name is there already. -/
def rename (command : Command) (old fresh : String) : Command :=
  { command with fields := command.fields.rename old fresh }

/-- The value of a field. -/
def get? (command : Command) (field : String) : Option Value := command.fields.get? field

/-- The names of the fields in their order. -/
def fieldNames (command : Command) : List String := command.fields.keys

/-- Whether the command has no field. -/
def isEmpty (command : Command) : Bool := command.fields.isEmpty

/-- The name of the object that the command applies to. -/
def targetName? (command : Command) : Option String :=
  (command.get? targetField).bind Value.text?

/-- The tag of the surface that the command applies to. -/
def tag? (command : Command) : Option UInt64 :=
  (command.get? tagField).bind Value.integer?

/-- Setting fails exactly when the field is there. -/
theorem set_eq_error_iff (command : Command) (field : String) (value : Value) (error : Error) :
    command.set field value = .error error ↔
      field ∈ command.fieldNames ∧ error = .duplicateField field := by
  rw [fieldNames, ← OrderedMap.contains_iff_mem_keys]
  by_cases there : command.fields.contains field = true
  · simp only [set, there, if_true, Except.error.injEq, true_and, eq_comm]
  · simp [set, there]

end Command

end ActionString
