import ActionString.Meaning.Phrase

/-!
# Setting fields

Fields with different names are set one after the other, each at the end; one that is there already
refuses them all.
-/

namespace ActionString.Command

/-- A field that is not there yet is given its value at the end. -/
theorem replace_of_notMem {command : Command} {field : String}
    (absent : field ∉ command.fieldNames) (value : Value) :
    command.replace field value =
      { command with fields := ⟨command.fields.entries ++ [(field, value)]⟩ } := by
  rw [replace, OrderedMap.insert_of_notMem absent]

/-- The names of fields with one more at the end. -/
theorem fieldNames_append (command : Command) (name : String) (value : Value) :
    ({ command with
      fields := ⟨command.fields.entries ++ [(name, value)]⟩ } : Command).fieldNames =
        command.fieldNames ++ [name] := by
  simp [fieldNames, OrderedMap.keys]

/-- A field that is not there yet is set at the end. -/
theorem set_of_notMem {command : Command} {field : String} (absent : field ∉ command.fieldNames)
    (value : Value) :
    command.set field value =
      .ok { command with fields := ⟨command.fields.entries ++ [(field, value)]⟩ } := by
  have missing : command.fields.contains field = false := by
    rw [Bool.eq_false_iff, Ne, OrderedMap.contains_iff_mem_keys]
    exact absent
  simp only [set, missing, replace_of_notMem absent]
  rfl

/-- Fields with different names are all set, in their order. -/
theorem setAll_of_nodup {fields : List (String × Value)} {command : Command}
    (distinct : (command.fieldNames ++ fields.map Prod.fst).Nodup) :
    command.setAll fields =
      .ok { command with fields := ⟨command.fields.entries ++ fields⟩ } := by
  induction fields generalizing command with
  | nil =>
    rw [List.append_nil]
    rfl
  | cons field fields ih =>
    obtain ⟨name, value⟩ := field
    rw [List.map_cons] at distinct
    have absent : name ∉ command.fieldNames := fun member =>
      (List.nodup_append.mp distinct).2.2 name member name (.head _) rfl
    have later := @ih { command with fields := ⟨command.fields.entries ++ [(name, value)]⟩ }
    rw [fieldNames_append, List.append_assoc, List.append_assoc] at later
    rw [setAll, List.foldlM_cons]
    dsimp only
    rw [set_of_notMem absent]
    exact later distinct

/-- Fields that are all set have different names, which the command did not have before. -/
theorem nodup_of_setAll {fields : List (String × Value)} {command result : Command}
    (distinct : command.fieldNames.Nodup) (accepted : command.setAll fields = .ok result) :
    (command.fieldNames ++ fields.map Prod.fst).Nodup := by
  induction fields generalizing command with
  | nil => rwa [List.map_nil, List.append_nil]
  | cons field fields ih =>
    obtain ⟨name, value⟩ := field
    rw [setAll, List.foldlM_cons] at accepted
    dsimp only at accepted
    by_cases there : name ∈ command.fieldNames
    · have refused := (command.set_eq_error_iff name value _).mpr ⟨there, rfl⟩
      rw [refused] at accepted
      cases accepted
    · rw [set_of_notMem there] at accepted
      have longer : (command.fieldNames ++ [name]).Nodup := by
        refine List.nodup_append.mpr ⟨distinct, List.pairwise_singleton _ _, ?_⟩
        rintro other member last (_ | ⟨_, ⟨⟩⟩) rfl
        exact there member
      have later := ih (fieldNames_append .. ▸ longer) accepted
      rwa [fieldNames_append, List.append_assoc] at later

end ActionString.Command
