import ActionString.Proofs.Fields
import ActionString.Proofs.OrderedMaps

/-!
# The command of arguments

The arguments of a command stand for fields. When the fields have different names the command has
all of them in their order, a resource under the word of the command; when two have the same name
there is no command. So the order of the arguments decides about the order of the fields, and about
nothing else.
-/

namespace ActionString

/-- Fields with the resource named after a command, unless one of them has that name already. -/
def namedAfter (kind : CommandKind) (fields : List (String × Value)) : List (String × Value) :=
  if kind.word ∈ fields.map Prod.fst then fields
  else fields.map fun field => if field.1 = "resource" then (kind.word, field.2) else field

/-- Fields with different names are renamed as a resource is named after its command. -/
theorem rename_resource {fields : List (String × Value)} (distinct : (fields.map Prod.fst).Nodup)
    (kind : CommandKind) :
    OrderedMap.rename ⟨fields⟩ Argument.resourceField kind.word = ⟨namedAfter kind fields⟩ := by
  by_cases taken : kind.word ∈ fields.map Prod.fst
  · rw [namedAfter, if_pos taken]
    exact OrderedMap.rename_of_mem taken _
  · have renamed := @OrderedMap.entries_rename _ _ _ ⟨fields⟩ distinct Argument.resourceField
      kind.word taken
    rw [namedAfter, if_neg taken]
    exact congrArg OrderedMap.mk renamed

/-- Naming the resource after the command does not repeat names. -/
theorem nodup_namedAfter {fields : List (String × Value)}
    (distinct : (fields.map Prod.fst).Nodup) (kind : CommandKind) :
    ((namedAfter kind fields).map Prod.fst).Nodup := by
  have names := @OrderedMap.nodup_keys_rename _ _ _ ⟨fields⟩ distinct Argument.resourceField kind.word
  rwa [rename_resource distinct] at names

/-- The resource is named after the command in whatever order the fields are. -/
theorem perm_namedAfter {first second : List (String × Value)} (same : first.Perm second)
    (kind : CommandKind) : (namedAfter kind first).Perm (namedAfter kind second) := by
  have names : kind.word ∈ first.map Prod.fst ↔ kind.word ∈ second.map Prod.fst :=
    (same.map Prod.fst).mem_iff
  by_cases taken : kind.word ∈ first.map Prod.fst
  · rwa [namedAfter, namedAfter, if_pos taken, if_pos (names.mp taken)]
  · rw [namedAfter, namedAfter, if_neg taken, if_neg (mt names.mpr taken)]
    exact same.map _

/-- A field other than the resource stays as it is. -/
theorem mem_namedAfter (kind : CommandKind) {fields : List (String × Value)}
    {field : String × Value} (member : field ∈ fields) (other : field.1 ≠ "resource") :
    field ∈ namedAfter kind fields := by
  rw [namedAfter]
  split
  · exact member
  · exact List.mem_map.mpr ⟨field, member, if_neg other⟩

/-- Arguments whose fields have different names stand for the command of these fields. -/
theorem command?_arguments_of_nodup (kind : CommandKind) {arguments : List Argument}
    (distinct : ((arguments.filterMap Argument.field?).map Prod.fst).Nodup) :
    (Phrase.arguments kind arguments).command? =
      some ⟨kind, ⟨namedAfter kind (arguments.filterMap Argument.field?)⟩⟩ := by
  have set : (Command.ofKind kind).setAll (arguments.filterMap Argument.field?) =
      .ok ⟨kind, ⟨arguments.filterMap Argument.field?⟩⟩ := Command.setAll_of_nodup distinct
  rw [Phrase.command?, Phrase.resolve, Command.ofArguments, set, ← rename_resource distinct]
  rfl

/-- Arguments that give two values to a field stand for no command. -/
theorem command?_arguments_of_not_nodup (kind : CommandKind) {arguments : List Argument}
    (repeated : ¬((arguments.filterMap Argument.field?).map Prod.fst).Nodup) :
    (Phrase.arguments kind arguments).command? = none := by
  rw [Phrase.command?, Phrase.resolve, Command.ofArguments]
  cases set : (Command.ofKind kind).setAll (arguments.filterMap Argument.field?) with
  | error error => rfl
  | ok result =>
    have fresh : (Command.ofKind kind).fieldNames.Nodup := List.nodup_nil
    exact absurd (Command.nodup_of_setAll fresh set) repeated

/-- Arguments for a resource and for other fields, all with different names, stand for the command
with the resource named after it. -/
theorem command?_arguments_of_resource {kind : CommandKind} {arguments : List Argument}
    {value : Value} {others : List (String × Value)}
    (fields : arguments.filterMap Argument.field? = (Argument.resourceField, value) :: others)
    (distinct : (Argument.resourceField :: others.map Prod.fst).Nodup)
    (fresh : kind.word ∉ Argument.resourceField :: others.map Prod.fst) :
    (Phrase.arguments kind arguments).command? =
      some ⟨kind, ⟨(kind.word, value) :: others⟩⟩ := by
  have others_same : others.map (fun field =>
      if field.1 = "resource" then (kind.word, field.2) else field) = others := by
    refine (List.map_congr_left fun field member => if_neg fun same => ?_).trans (List.map_id _)
    exact (List.nodup_cons.mp distinct).1 (List.mem_map.mpr ⟨field, member, same⟩)
  have named : namedAfter kind ((Argument.resourceField, value) :: others) =
      (kind.word, value) :: others := by
    rw [namedAfter, List.map_cons, if_neg fresh, List.map_cons, others_same]
    rfl
  rw [command?_arguments_of_nodup kind (by rw [fields]; exact distinct), fields, named]

/-- Arguments stand for no command exactly when two of their fields have the same name, and else for
the command of the fields in their order, with the resource named after it. Arguments in another
order stand for no command either, or for one with the same values. -/
theorem command?_arguments_perm (kind : CommandKind) (arguments : List Argument) :
    ((Phrase.arguments kind arguments).command? = none ↔
        ¬((arguments.filterMap Argument.field?).map Prod.fst).Nodup) ∧
      (∀ command, (Phrase.arguments kind arguments).command? = some command →
        command = ⟨kind, ⟨namedAfter kind (arguments.filterMap Argument.field?)⟩⟩) ∧
      ∀ other, other.Perm arguments →
        ((Phrase.arguments kind other).command? = none ∧
            (Phrase.arguments kind arguments).command? = none) ∨
          ∃ first second, (Phrase.arguments kind other).command? = some first ∧
            (Phrase.arguments kind arguments).command? = some second ∧
            ∀ field, first.get? field = second.get? field := by
  by_cases distinct : ((arguments.filterMap Argument.field?).map Prod.fst).Nodup
  · have made := command?_arguments_of_nodup kind distinct
    refine ⟨by simp [made, distinct], fun command same => ?_, fun other order => .inr ?_⟩
    · rw [made, Option.some.injEq] at same
      exact same.symm
    · have fields := order.filterMap Argument.field?
      have others := ((fields.map Prod.fst).nodup_iff).mpr distinct
      exact ⟨_, _, command?_arguments_of_nodup kind others, made, OrderedMap.get?_of_perm
        (nodup_namedAfter others kind) (perm_namedAfter fields kind)⟩
  · have none := command?_arguments_of_not_nodup kind distinct
    refine ⟨by simp [none, distinct], fun command same => ?_, fun other order => .inl ⟨?_, none⟩⟩
    · rw [none] at same
      cases same
    · have fields := (order.filterMap Argument.field?).map Prod.fst
      exact command?_arguments_of_not_nodup kind (mt fields.nodup_iff.mp distinct)

/-- A word that means neither yes nor no counts for nothing, wherever the arguments stand. -/
theorem command?_arguments_perm_skipped :
    let arguments : List Argument :=
      [.resource "a.jpg", .answer "maybe", .parameter "TAG" (.integer "7")]
    (Phrase.arguments .texture arguments).command? =
        some ⟨.texture, ⟨[("texture", .text "a.jpg"), ("tag", .integer 7)]⟩⟩ ∧
      arguments.reverse.Perm arguments ∧
      ∃ command, (Phrase.arguments .texture arguments.reverse).command? = some command ∧
        command.get? "tag" = some (.integer 7) := by
  intro arguments
  have fields : arguments.filterMap Argument.field? =
      [("resource", .text "a.jpg"), ("tag", .integer 7)] := by decide +kernel
  have distinct : ¬(Phrase.arguments .texture arguments).command? = none := by
    rw [(command?_arguments_perm .texture arguments).1, fields]
    decide
  obtain ⟨command, made⟩ := Option.ne_none_iff_exists'.mp distinct
  have same := (command?_arguments_perm .texture arguments).2.1 command made
  rw [fields] at same
  subst same
  have order : arguments.reverse.Perm arguments := List.reverse_perm arguments
  refine ⟨made, order, ?_⟩
  obtain ⟨-, none⟩ | ⟨first, second, reversed, given, values⟩ :=
    (command?_arguments_perm .texture arguments).2.2 _ order
  · exact absurd none distinct
  · rw [made, Option.some.injEq] at given
    exact ⟨first, reversed, by rw [values "tag", ← given]; rfl⟩

end ActionString
