import ActionString.Meaning.Phrase
import ActionString.Proofs.OrderedMaps

/-!
# Schemas of commands

Each kind of command has a schema: the fields that a command of this kind may have, with what their
values can be. A command conforms to a schema when its fields have different names and are in the
schema; setting, replacing and renaming fields keep it so.
-/

namespace ActionString

/-- What the values of a field can be. -/
inductive Range where
  /-- All values of a form. -/
  | form (shape : ValueForm)
  /-- Some texts. -/
  | words (choices : List String)
  /-- The value of a switch that is on. -/
  | on
  deriving DecidableEq, Repr

/-- Whether a value lies in a range. -/
def Range.Holds : Range → Value → Prop
  | form shape, value => value.form = shape
  | words choices, value => ∃ word ∈ choices, value = .text word
  | on, value => value = .bool true

/-- Fields with their ranges. -/
abbrev Schema := List (String × Range)

/-- A schema has a field with a range for its value. -/
def Schema.Allows (schema : Schema) (field : String × Value) : Prop :=
  ∃ range, (field.1, range) ∈ schema ∧ range.Holds field.2

/-- A schema has a field with all values of a form. -/
theorem Schema.Allows.of_form {schema : Schema} {field : String} {value : Value}
    (form : ValueForm) (listed : (field, .form form) ∈ schema) (formed : value.form = form) :
    schema.Allows (field, value) :=
  ⟨.form form, listed, formed⟩

namespace CommandKind

/-- The fields of movements besides the numbers for the axes. -/
def motion : Schema :=
  [("loop", .form .bool), ("sync", .form .bool), ("reset", .form .bool), ("time", .form .float),
   ("wait", .form .float), ("targetName", .form .text)]

/-- The fields that a command of a kind may have. -/
def schema : CommandKind → Schema
  | texture =>
    [("texture", .form .text), ("mask", .form .text), ("targetName", .form .text),
     ("tag", .form .integer)]
  | animate =>
    [("tag", .form .integer), ("maskStatus", .form .bool), ("targetName", .form .text),
     ("texture", .form .text), ("imageCount", .form .integer), ("frameCount", .form .integer),
     ("frameDelay", .form .integer), ("frameList", .form .integers)]
  | sound => [("sound", .form .text), ("targetName", .form .text), ("loop", .form .bool)]
  | corona =>
    [("corona", .form .text), ("mask", .form .text), ("targetName", .form .text),
     ("size", .form .float), ("tag", .form .integer)]
  | color => [("color", .form .color), ("targetName", .form .text)]
  | examine => []
  | solid | visible => [("value", .form .bool), ("targetName", .form .text)]
  | name => [("targetName", .form .text)]
  | move => ("distance", .form .vector) :: motion
  | rotate => ("speed", .form .vector) :: motion
  | scale => ("factor", .form .vector) :: motion
  | light =>
    [("type", .words ["point", "spot"]),
     ("fx", .words ["blink", "fadein", "fadeout", "fire", "flicker", "flash", "pulse"]),
     ("targetName", .form .text), ("color", .form .color), ("brightness", .form .float),
     ("radius", .form .float), ("time", .form .float), ("angle", .form .float),
     ("pitch", .form .float)]
  | noise => [("noise", .form .text), ("overlap", .on)]
  | opacity => [("value", .form .float), ("tag", .form .integer), ("targetName", .form .text)]
  | ambient | diffuse | specular =>
    [("intensity", .form .float), ("tag", .form .integer), ("targetName", .form .text)]
  | picture => [("picture", .form .text), ("update", .form .integer), ("targetName", .form .text)]
  | media => [("media", .form .text), ("targetName", .form .text), ("radius", .form .float)]
  | say => [("text", .form .text)]
  | seq => [("seq", .form .text), ("targetName", .form .text), ("loop", .form .bool)]
  | sign =>
    [("text", .form .text), ("targetName", .form .text), ("color", .form .color),
     ("bcolor", .form .color)]
  | teleport =>
    [("worldName", .form .text), ("coordinates", .form .position), ("altitude", .form .altitude),
     ("direction", .form .integer)]
  | warp =>
    [("coordinates", .form .position), ("altitude", .form .altitude), ("direction", .form .integer)]
  | url => [("url", .form .text), ("target", .words ["aw_3d"])]
  | invalid => [("commandText", .form .text)]

/-- The kinds with a resource that is named after the command. -/
def withResource : List CommandKind := [texture, sound, corona, noise, picture, media, url]

/-- The fields that the arguments of a kind may stand for: a resource is not yet named after the
command. -/
def argumentSchema (kind : CommandKind) : Schema :=
  if kind ∈ withResource then
    kind.schema.map fun entry =>
      if entry.1 = kind.word then (Argument.resourceField, entry.2) else entry
  else kind.schema

/-- No field of a command is called `resource` or `commandType`. -/
theorem unreserved_schema (kind : CommandKind) :
    ∀ entry ∈ kind.schema, entry.1 ≠ Argument.resourceField ∧ entry.1 ≠ "commandType" := by
  cases kind <;> decide

/-- A field that arguments stand for is a field of the command, after a resource is renamed. -/
theorem mem_schema_of_argumentSchema (kind : CommandKind) :
    ∀ entry ∈ kind.argumentSchema,
      (if entry.1 = Argument.resourceField then (kind.word, entry.2) else entry) ∈ kind.schema := by
  cases kind <;> decide

/-- Where arguments may stand for a resource, none stands for a field with the name of the
command. -/
theorem ne_word_of_argumentSchema (kind : CommandKind) :
    ∀ entry ∈ kind.argumentSchema, entry.1 = Argument.resourceField →
      ∀ other ∈ kind.argumentSchema, other.1 ≠ kind.word := by
  cases kind <;> decide

end CommandKind

/-- What is made in two steps is made by the second of what the first made. -/
theorem exists_of_bind_eq_ok {ε α β : Type} {first : Except ε α} {next : α → Except ε β}
    {result : β} (made : first >>= next = .ok result) :
    ∃ value, first = .ok value ∧ next value = .ok result := by
  cases first with
  | error reason => cases made
  | ok value => exact ⟨value, rfl, made⟩

namespace Command

/-- A command of a kind whose fields have different names and are in a schema. -/
structure Conforms (kind : CommandKind) (schema : Schema) (command : Command) : Prop where
  kind_eq : command.kind = kind
  distinct : command.fieldNames.Nodup
  allowed : ∀ field ∈ command.fields.entries, schema.Allows field

namespace Conforms

variable {kind : CommandKind} {schema : Schema} {command result : Command}

/-- The name of each field is in the schema. -/
theorem exists_mem_schema (conforms : Conforms kind schema command) {name : String}
    (member : name ∈ command.fieldNames) : ∃ entry ∈ schema, entry.1 = name := by
  obtain ⟨field, inside, rfl⟩ := List.mem_map.mp member
  obtain ⟨range, known, -⟩ := conforms.allowed field inside
  exact ⟨_, known, rfl⟩

/-- A command without fields conforms to every schema. -/
theorem ofKind (kind : CommandKind) (schema : Schema) : Conforms kind schema (ofKind kind) where
  kind_eq := rfl
  distinct := List.nodup_nil
  allowed := fun _ member => by cases member

/-- Giving a value to a field of the schema keeps a command conforming. -/
theorem replace (conforms : Conforms kind schema command) {field : String} {value : Value}
    (allows : schema.Allows (field, value)) :
    Conforms kind schema (command.replace field value) where
  kind_eq := conforms.kind_eq
  distinct := OrderedMap.nodup_keys_insert conforms.distinct field value
  allowed := by
    intro entry member
    obtain rfl | before := OrderedMap.eq_or_mem_of_mem_insert member
    · exact allows
    · exact conforms.allowed entry before

/-- Setting a field of the schema keeps a command conforming. -/
theorem set (conforms : Conforms kind schema command) {field : String} {value : Value}
    (allows : schema.Allows (field, value)) (made : command.set field value = .ok result) :
    Conforms kind schema result := by
  rw [Command.set] at made
  split at made
  · cases made
  · cases made
    exact conforms.replace allows

/-- Setting fields of the schema keeps a command conforming. -/
theorem setAll (conforms : Conforms kind schema command) {fields : List (String × Value)}
    (allows : ∀ field ∈ fields, schema.Allows field) (made : command.setAll fields = .ok result) :
    Conforms kind schema result := by
  induction fields generalizing command with
  | nil =>
    cases made
    exact conforms
  | cons field fields ih =>
    rw [List.forall_mem_cons] at allows
    obtain ⟨middle, first, others⟩ := exists_of_bind_eq_ok made
    exact ih (conforms.set allows.1 first) allows.2 others

/-- Naming a resource after its command turns the fields of arguments into fields of the command. -/
theorem rename (conforms : Conforms kind kind.argumentSchema command) :
    Conforms kind kind.schema (command.rename Argument.resourceField kind.word) where
  kind_eq := conforms.kind_eq
  distinct := OrderedMap.nodup_keys_rename conforms.distinct _ _
  allowed := by
    have known := kind.mem_schema_of_argumentSchema
    intro field member
    by_cases there : kind.word ∈ command.fieldNames
    · -- The command has a field with its own name, so it has no resource to rename.
      rw [Command.rename, OrderedMap.rename_of_mem there] at member
      obtain ⟨range, listed, holds⟩ := conforms.allowed field member
      have other : field.1 ≠ Argument.resourceField := by
        intro resource
        obtain ⟨entry, own, same⟩ := conforms.exists_mem_schema there
        exact kind.ne_word_of_argumentSchema _ listed resource entry own same
      have named := known _ listed
      rw [if_neg other] at named
      exact ⟨range, named, holds⟩
    · rw [Command.rename, OrderedMap.entries_rename conforms.distinct there] at member
      obtain ⟨before, inside, rfl⟩ := List.mem_map.mp member
      obtain ⟨range, listed, holds⟩ := conforms.allowed before inside
      have named := known _ listed
      by_cases resource : before.1 = Argument.resourceField
      · rw [if_pos resource] at named ⊢
        exact ⟨range, named, holds⟩
      · rw [if_neg resource] at named ⊢
        exact ⟨range, named, holds⟩

end Conforms

end Command

end ActionString
