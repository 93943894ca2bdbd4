import ActionString.Proofs.Fields
import ActionString.Proofs.OrderedMaps

/-!
# Edited commands

A command is edited by setting fields, replacing their values and renaming them. What an edit makes
of the fields is said of their list alone: a field is added at the end, or changed where it stands,
or the list stays as it is. Names are never repeated, however a command is edited, so its fields
are found by their names.
-/

namespace ActionString

namespace OrderedMap

variable {κ ν : Type} [DecidableEq κ]

omit [DecidableEq κ] in
/-- A key that is there stands in some place, and at its first place there is none of it before. -/
theorem exists_entries_eq {map : OrderedMap κ ν} {key : κ} (there : key ∈ map.keys) :
    ∃ front value rest, map.entries = front ++ (key, value) :: rest ∧
      key ∉ front.map Prod.fst := by
  obtain ⟨before, after, names, absent⟩ := List.eq_append_cons_of_mem there
  obtain ⟨front, others, parts, rfl, tail⟩ := List.map_eq_append_iff.mp names
  obtain ⟨⟨_, value⟩, rest, rfl, rfl, rfl⟩ := List.map_eq_cons_iff.mp tail
  exact ⟨front, value, rest, parts, absent⟩

/-- A key that is there is given its value where it stands. -/
theorem insertEntry_append {key : κ} {front : List (κ × ν)} (absent : key ∉ front.map Prod.fst)
    (old value : ν) (rest : List (κ × ν)) :
    insertEntry key value (front ++ (key, old) :: rest) = front ++ (key, value) :: rest := by
  induction front with
  | nil => rw [List.nil_append, insertEntry, if_pos rfl, List.nil_append]
  | cons entry front ih =>
    rw [List.map_cons, List.mem_cons, not_or] at absent
    rw [List.cons_append, insertEntry, if_neg (Ne.symm absent.1), ih absent.2, List.cons_append]

/-- A key that is there is renamed where it stands. -/
theorem renameEntry_append {old : κ} {front : List (κ × ν)} (absent : old ∉ front.map Prod.fst)
    (fresh : κ) (value : ν) (rest : List (κ × ν)) :
    renameEntry old fresh (front ++ (old, value) :: rest) = front ++ (fresh, value) :: rest := by
  induction front with
  | nil => rw [List.nil_append, renameEntry, if_pos rfl, List.nil_append]
  | cons entry front ih =>
    rw [List.map_cons, List.mem_cons, not_or] at absent
    rw [List.cons_append, renameEntry, if_neg (Ne.symm absent.1), ih absent.2, List.cons_append]

/-- A key that is absent is not renamed. -/
theorem renameEntry_of_notMem {old : κ} {entries : List (κ × ν)}
    (absent : old ∉ entries.map Prod.fst) (fresh : κ) :
    renameEntry old fresh entries = entries := by
  induction entries with
  | nil => rfl
  | cons entry rest ih =>
    rw [List.map_cons, List.mem_cons, not_or] at absent
    rw [renameEntry, if_neg (Ne.symm absent.1), ih absent.2]

end OrderedMap

/-- How a command begins: as one of a kind, without fields, or with text that is not recognised. -/
inductive Command.Origin where
  | ofKind (kind : CommandKind)
  | unrecognized (text : String)
  deriving DecidableEq, Repr

/-- The command as it begins. -/
def Command.Origin.command : Origin → Command
  | ofKind kind => Command.ofKind kind
  | unrecognized text => Command.unrecognized text

/-- A change of the fields of a command. -/
inductive Edit where
  /-- Gives a value to a field that has none. -/
  | set (field : String) (value : Value)
  /-- Gives a value to a field, in place of the value that it may have. -/
  | replace (field : String) (value : Value)
  /-- Renames a field. -/
  | rename (old fresh : String)
  deriving DecidableEq, Repr

/-- What an edit makes of a list of fields, and the error of an edit that is refused. -/
inductive Edit.Makes :
    Edit → List (String × Value) → Option Error → List (String × Value) → Prop where
  | set_absent {field value fields} (absent : field ∉ fields.map Prod.fst) :
      Makes (.set field value) fields none (fields ++ [(field, value)])
  | set_present {field value fields} (there : field ∈ fields.map Prod.fst) :
      Makes (.set field value) fields (some (.duplicateField field)) fields
  | replace_absent {field value fields} (absent : field ∉ fields.map Prod.fst) :
      Makes (.replace field value) fields none (fields ++ [(field, value)])
  | replace_present {field value front old rest} :
      Makes (.replace field value) (front ++ (field, old) :: rest) none
        (front ++ (field, value) :: rest)
  | rename_moves {old fresh front value rest} (different : old ≠ fresh)
      (absent : fresh ∉ (front ++ (old, value) :: rest).map Prod.fst) :
      Makes (.rename old fresh) (front ++ (old, value) :: rest) none
        (front ++ (fresh, value) :: rest)
  | rename_idle {old fresh fields}
      (idle : old ∉ fields.map Prod.fst ∨ fresh ∈ fields.map Prod.fst ∨ old = fresh) :
      Makes (.rename old fresh) fields none fields

namespace Command

/-- The command after an edit, with the error of an edit that is refused. A refused edit leaves
the command as it was. -/
def edit (command : Command) : Edit → Command × Option Error
  | .set field value =>
    match command.set field value with
    | .ok changed => (changed, none)
    | .error error => (command, some error)
  | .replace field value => (command.replace field value, none)
  | .rename old fresh => (command.rename old fresh, none)

/-- The command after edits, made one after the other whether or not some are refused. -/
def editAll (command : Command) (edits : List Edit) : Command :=
  edits.foldl (fun command edit => (command.edit edit).1) command

/-- Replacing the value of a field is setting it where it has none. -/
theorem edit_set_of_notMem {command : Command} {field : String}
    (absent : field ∉ command.fieldNames) (value : Value) :
    command.edit (.set field value) = command.edit (.replace field value) := by
  rw [edit, edit, set_of_notMem absent, replace_of_notMem absent]

/-- Setting a field that is there is refused. -/
theorem edit_set_of_mem {command : Command} {field : String} (there : field ∈ command.fieldNames)
    (value : Value) :
    command.edit (.set field value) = (command, some (.duplicateField field)) := by
  rw [edit, (command.set_eq_error_iff field value _).mpr ⟨there, rfl⟩]

/-- No edit changes the kind of a command. -/
theorem kind_edit (command : Command) (edit : Edit) :
    (command.edit edit).1.kind = command.kind := by
  cases edit with
  | set field value =>
    by_cases there : field ∈ command.fieldNames
    · rw [edit_set_of_mem there]
    · rw [edit_set_of_notMem there]
      rfl
  | replace field value => rfl
  | rename old fresh => rfl

/-- No edit repeats a name. -/
theorem nodup_edit {command : Command} (distinct : command.fieldNames.Nodup) (edit : Edit) :
    (command.edit edit).1.fieldNames.Nodup := by
  have replaced (field : String) (value : Value) :
      (command.edit (.replace field value)).1.fieldNames.Nodup :=
    OrderedMap.nodup_keys_insert distinct field value
  cases edit with
  | set field value =>
    by_cases there : field ∈ command.fieldNames
    · rw [edit_set_of_mem there]
      exact distinct
    · rw [edit_set_of_notMem there]
      exact replaced field value
  | replace field value => exact replaced field value
  | rename old fresh => exact OrderedMap.nodup_keys_rename distinct old fresh

/-- Replacing a value adds a field at the end or changes one where it stands. -/
theorem makes_replace (command : Command) (field : String) (value : Value) :
    (Edit.replace field value).Makes command.fields.entries none
      (command.replace field value).fields.entries := by
  by_cases there : field ∈ command.fields.keys
  · obtain ⟨front, old, rest, parts, absent⟩ := OrderedMap.exists_entries_eq there
    have changed : (command.replace field value).fields.entries =
        front ++ (field, value) :: rest := by
      rw [replace, OrderedMap.insert, parts, OrderedMap.insertEntry_append absent]
    rw [parts, changed]
    exact .replace_present
  · rw [replace_of_notMem there]
    exact .replace_absent there

/-- Renaming changes one name where it stands, or nothing. -/
theorem makes_rename (command : Command) (old fresh : String) :
    (Edit.rename old fresh).Makes command.fields.entries none
      (command.rename old fresh).fields.entries := by
  by_cases taken : fresh ∈ command.fields.keys
  · rw [rename, OrderedMap.rename_of_mem taken]
    exact .rename_idle (.inr (.inl taken))
  · rw [rename, OrderedMap.rename_of_notMem taken]
    dsimp only
    by_cases there : old ∈ command.fields.keys
    · have different : old ≠ fresh := fun same => taken (same ▸ there)
      obtain ⟨front, value, rest, parts, absent⟩ := OrderedMap.exists_entries_eq there
      rw [OrderedMap.keys, parts] at taken
      rw [parts, OrderedMap.renameEntry_append absent]
      exact .rename_moves different taken
    · rw [OrderedMap.renameEntry_of_notMem there]
      exact .rename_idle (.inl there)

/-- Every edit makes of the fields what is said of their list. -/
theorem makes_edit (command : Command) (edit : Edit) :
    edit.Makes command.fields.entries (command.edit edit).2
      (command.edit edit).1.fields.entries := by
  cases edit with
  | set field value =>
    by_cases there : field ∈ command.fieldNames
    · rw [edit_set_of_mem there]
      exact .set_present there
    · rw [edit, set_of_notMem there]
      exact .set_absent there
  | replace field value => exact command.makes_replace field value
  | rename old fresh => exact command.makes_rename old fresh

/-- A command begins without repeated names. -/
theorem Origin.nodup_command (origin : Origin) : origin.command.fieldNames.Nodup := by
  cases origin with
  | ofKind kind => exact List.nodup_nil
  | unrecognized text => exact List.nodup_singleton textField

/-- Edits repeat no name. -/
theorem nodup_editAll {command : Command} (distinct : command.fieldNames.Nodup)
    (edits : List Edit) : (command.editAll edits).fieldNames.Nodup := by
  induction edits generalizing command with
  | nil => exact distinct
  | cons edit edits ih => exact ih (nodup_edit distinct edit)

/-- Edits do not change the kind of a command. -/
theorem kind_editAll (command : Command) (edits : List Edit) :
    (command.editAll edits).kind = command.kind := by
  induction edits generalizing command with
  | nil => rfl
  | cons edit edits ih => exact (ih _).trans (command.kind_edit edit)

/-- However a command is edited, it has its kind, its names are different, and a name has exactly
the value that stands beside it in the list of fields. One more edit makes of this list what it
makes of lists: a field that is set or replaced is added at the end when it is absent; when it is
there, setting is refused and leaves the list as it is, and replacing changes the value where it
stands; renaming changes the name where it stands when it is there and the new one is not, and
nothing otherwise. -/
theorem editAll_faithful (origin : Origin) (edits : List Edit) :
    (origin.command.editAll edits).kind = origin.command.kind ∧
      (origin.command.editAll edits).fieldNames.Nodup ∧
      (∀ name value, (origin.command.editAll edits).get? name = some value ↔
        (name, value) ∈ (origin.command.editAll edits).fields.entries) ∧
      ∀ edit : Edit, edit.Makes (origin.command.editAll edits).fields.entries
        ((origin.command.editAll edits).edit edit).2
        (origin.command.editAll (edits ++ [edit])).fields.entries := by
  have distinct := nodup_editAll origin.nodup_command edits
  refine ⟨kind_editAll _ edits, distinct, fun name value => OrderedMap.get?_eq_some_iff distinct,
    fun edit => ?_⟩
  have last : origin.command.editAll (edits ++ [edit]) =
      ((origin.command.editAll edits).edit edit).1 := List.foldl_append
  rw [last]
  exact makes_edit _ edit

end Command

end ActionString
