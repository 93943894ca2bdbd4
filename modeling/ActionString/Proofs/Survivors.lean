import ActionString.Proofs.MergedCommands

/-!
# Surviving commands

Merging is described without maps: each command that counts concerns a subject, and merging keeps
one command for each subject. The subjects stand in the order in which they first come up, and each
has the last of its commands.
-/

namespace ActionString

open OrderedMap

/-- What a command concerns. -/
inductive Subject where
  /-- The name of the object, of which there is one. -/
  | naming
  /-- What the commands of a kind do to a target and a tag. -/
  | deed (kind : CommandKind) (target : String) (tag : Option UInt64)
  deriving DecidableEq, Repr

namespace Command

/-- The subject of a command. A target that is not given, or is no text, is the empty one, and a
tag that is no integer is none. -/
def subject (command : Command) : Subject :=
  if command.kind = .name then .naming
  else .deed command.kind
    (match command.get? "targetName" with
      | some (.text name) => name
      | _ => "")
    (match command.get? "tag" with
      | some (.integer number) => some number
      | _ => none)

/-- Whether a command counts: it is recognised, and it has a field or is one of the two kinds that
need none. -/
def counts (command : Command) : Bool :=
  command.kind ≠ .invalid &&
    (command.fieldNames ≠ [] || command.kind = .examine || command.kind = .sign)

/-- The commands that count are those that survive merging. -/
theorem survives_eq_counts : survives = counts := by
  funext command
  have empty : command.isEmpty = decide (command.fieldNames = []) := by
    rw [Bool.eq_iff_iff, decide_eq_true_eq, fieldNames, OrderedMap.keys, List.map_eq_nil_iff]
    exact List.isEmpty_iff
  have kinds : command.kind.allowsEmpty = (command.kind = .examine || command.kind = .sign) := by
    cases command.kind <;> rfl
  rw [survives, counts, empty, kinds, Bool.or_assoc, ← decide_not]

end Command

/-- The subject that a key of merging stands for. -/
def MergeKey.subject (key : MergeKey) : Subject :=
  if key.kind = .name then .naming else .deed key.kind key.target key.tag

namespace Command

/-- Commands are merged by their subjects. -/
theorem subject_mergeKey (command : Command) : command.mergeKey.subject = command.subject := by
  have target : command.targetName?.getD "" =
      match command.get? "targetName" with
      | some (.text name) => name
      | _ => "" := by
    rw [targetName?, targetField]
    rcases command.get? "targetName" with _ | value
    · rfl
    · cases value <;> rfl
  have tag : command.tag? =
      match command.get? "tag" with
      | some (.integer number) => some number
      | _ => none := by
    rw [tag?, tagField]
    rcases command.get? "tag" with _ | value
    · rfl
    · cases value <;> rfl
  rw [mergeKey, subject]
  split
  · rfl
  · rename_i other
    rw [MergeKey.subject, if_neg other, target, tag]

/-- Different keys of merging stand for different subjects. -/
theorem mergeKey_of_subject {first second : Command} (same : first.subject = second.subject) :
    first.mergeKey = second.mergeKey := by
  rw [← subject_mergeKey, ← subject_mergeKey] at same
  by_cases naming : first.kind = .name <;> by_cases other : second.kind = .name <;>
    simp_all [mergeKey, MergeKey.subject]

end Command

/-- The commands of a list that count. -/
def counting (commands : List (Option Command)) : List Command :=
  commands.reduceOption.filter Command.counts

/-- Where different members have different images, repeated images are those of repeated
members. -/
theorem eraseDups_map {α β : Type} [DecidableEq α] [DecidableEq β] {change : α → β}
    {members : List α}
    (different : ∀ first ∈ members, ∀ second ∈ members, change first = change second →
      first = second) :
    (members.map change).eraseDups = members.eraseDups.map change := by
  induction members using List.reverseRecOn with
  | nil => rfl
  | append_singleton members member ih =>
    have earlier := ih fun first inFirst second inSecond =>
      different first (List.mem_append_left _ inFirst) second (List.mem_append_left _ inSecond)
    have there : change member ∈ members.map change ↔ member ∈ members := by
      constructor
      · intro image
        obtain ⟨other, inside, same⟩ := List.mem_map.mp image
        rwa [← different other (by simp [inside]) member (by simp) same]
      · exact List.mem_map_of_mem
    rw [List.map_append, List.map_singleton, eraseDups_concat, eraseDups_concat, earlier,
      if_congr there rfl rfl, apply_ite (List.map change), List.map_append, List.map_singleton]

/-- The commands that are kept are those that count. -/
theorem keyed_eq_counting (commands : List (Option Command)) :
    keyed commands = (counting commands).map fun command => (command.mergeKey, command) := by
  rw [keyed, counting, Command.survives_eq_counts]

/-- A merged command stands under its key. -/
theorem key_of_mem_merged {commands : List (Option Command)} {entry : MergeKey × Command}
    (member : entry ∈ ((∅ : OrderedMap MergeKey Command).insertAll (keyed commands)).entries) :
    entry.1 = entry.2.mergeKey := by
  obtain none | given := mem_of_mem_insertAll member
  · cases none
  · exact (mem_keyed_iff.mp given).2.2

/-- The keys of merged commands are those of the commands that count, in the order in which they
first come up. -/
theorem map_mergeKey_mergeCommands (commands : List (Option Command)) :
    (mergeCommands commands).map Command.mergeKey =
      ((counting commands).map Command.mergeKey).eraseDups := by
  have keys : (counting commands).map Command.mergeKey = (keyed commands).map Prod.fst := by
    rw [keyed_eq_counting, List.map_map]
    rfl
  rw [keys, ← keys_insertAll, mergeCommands_eq_values, values, OrderedMap.keys, List.map_map]
  exact List.map_congr_left fun entry member => (key_of_mem_merged member).symm

/-- A merged command is the last of those that count with its key. -/
theorem getLast?_of_mem_mergeCommands {commands : List (Option Command)} {command : Command}
    (member : command ∈ mergeCommands commands) :
    ((counting commands).filter fun other => other.mergeKey = command.mergeKey).getLast? =
      some command := by
  rw [mergeCommands_eq_values, values, List.mem_map] at member
  obtain ⟨entry, inside, rfl⟩ := member
  have nothing : (∅ : OrderedMap MergeKey Command).keys.Nodup := List.nodup_nil
  have found := get?_of_mem (nodup_keys_insertAll nothing _) inside
  rw [get?_insertAll, keyed_eq_counting, List.filter_map, List.getLast?_map, Option.map_map,
    key_of_mem_merged inside] at found
  simpa [Function.comp_def] using found

/-- Merging keeps one command for each subject of the commands that count: the subjects stand in the
order in which they first come up, and each has the last of its commands. -/
theorem mergeCommands_first_last (commands : List (Option Command)) :
    (mergeCommands commands).map Command.subject =
        ((counting commands).map Command.subject).eraseDups ∧
      ∀ command ∈ mergeCommands commands,
        ((counting commands).filter fun other => other.subject = command.subject).getLast? =
          some command := by
  have same (first second : Command) :
      first.subject = second.subject ↔ first.mergeKey = second.mergeKey := by
    refine ⟨Command.mergeKey_of_subject, fun key => ?_⟩
    rw [← Command.subject_mergeKey, key, Command.subject_mergeKey]
  have subjects (commands : List Command) : commands.map Command.subject =
      (commands.map Command.mergeKey).map MergeKey.subject := by
    rw [List.map_map]
    exact List.map_congr_left fun command _ => (Command.subject_mergeKey command).symm
  constructor
  · rw [subjects, subjects, map_mergeKey_mergeCommands]
    refine (eraseDups_map ?_).symm
    simp only [List.forall_mem_map, Command.subject_mergeKey]
    exact fun first _ second _ => (same first second).mp
  · intro command member
    simp only [same]
    exact getLast?_of_mem_mergeCommands member

end ActionString
