import ActionString.Merge
import ActionString.Proofs.OrderedMaps
import Mathlib.Data.List.ReduceOption

/-!
# Merged commands

Merging the commands of a trigger fills an ordered map with the commands that are kept, each under
its key. Merged commands are kept as well and have different keys, so merging may go on from them
instead of from the commands that they were merged from.
-/

namespace ActionString

open OrderedMap

/-- The commands that are kept, each under its key. -/
def keyed (commands : List (Option Command)) : List (MergeKey × Command) :=
  (commands.reduceOption.filter Command.survives).map fun command => (command.mergeKey, command)

/-- The commands of two lists are kept separately. -/
theorem keyed_append (first second : List (Option Command)) :
    keyed (first ++ second) = keyed first ++ keyed second := by
  simp only [keyed, List.reduceOption_append, List.filter_append, List.map_append]

/-- A command that is kept stands under its key. -/
theorem mem_keyed_iff {commands : List (Option Command)} {entry : MergeKey × Command} :
    entry ∈ keyed commands ↔
      some entry.2 ∈ commands ∧ entry.2.survives = true ∧ entry.1 = entry.2.mergeKey := by
  simp only [keyed, List.mem_map, List.mem_filter, List.reduceOption_mem_iff]
  constructor
  · rintro ⟨command, ⟨member, survives⟩, rfl⟩
    exact ⟨member, survives, rfl⟩
  · rintro ⟨member, survives, key⟩
    exact ⟨entry.2, ⟨member, survives⟩, by rw [← key]⟩

/-- Merging one command after the other fills a map with those that are kept. -/
theorem foldl_mergeInto (merged : OrderedMap MergeKey Command) (commands : List (Option Command)) :
    commands.foldl mergeInto merged = merged.insertAll (keyed commands) := by
  induction commands generalizing merged with
  | nil => rfl
  | cons command commands ih =>
    rw [List.foldl_cons, ih]
    cases command with
    | none => simp [mergeInto, keyed]
    | some command => by_cases survives : command.survives = true <;> simp [mergeInto, keyed, survives]

/-- The merged commands are the values of a filled map. -/
theorem mergeCommands_eq_values (commands : List (Option Command)) :
    mergeCommands commands =
      ((∅ : OrderedMap MergeKey Command).insertAll (keyed commands)).values := by
  rw [mergeCommands, foldl_mergeInto]

/-- Merged commands are kept, each under the key that it was merged under. -/
theorem keyed_mergeCommands (commands : List (Option Command)) :
    keyed ((mergeCommands commands).map some) =
      ((∅ : OrderedMap MergeKey Command).insertAll (keyed commands)).entries := by
  have each : ∀ entry ∈ ((∅ : OrderedMap MergeKey Command).insertAll (keyed commands)).entries,
      entry.2.survives = true ∧ (entry.2.mergeKey, entry.2) = entry := by
    intro entry member
    obtain none | given := mem_of_mem_insertAll member
    · cases none
    · obtain ⟨-, survives, key⟩ := mem_keyed_iff.mp given
      exact ⟨survives, by rw [← key]⟩
  rw [mergeCommands_eq_values]
  generalize ((∅ : OrderedMap MergeKey Command).insertAll (keyed commands)) = merged at each ⊢
  have kept : merged.values.filter Command.survives = merged.values :=
    List.filter_eq_self.mpr (List.forall_mem_map.mpr fun entry member => (each entry member).1)
  have present : (merged.values.map some).reduceOption = merged.values := by
    rw [List.reduceOption, List.filterMap_map]
    exact List.filterMap_some
  rw [keyed, present, kept, values, List.map_map]
  exact (List.map_congr_left fun entry member => (each entry member).2).trans (List.map_id _)

/-- Merging goes on from merged commands as from the commands that they were merged from. -/
theorem insertAll_keyed_mergeCommands (merged : OrderedMap MergeKey Command)
    (commands : List (Option Command)) :
    merged.insertAll (keyed ((mergeCommands commands).map some)) =
      merged.insertAll (keyed commands) := by
  rw [keyed_mergeCommands, insertAll_entries_insertAll]

/-- The commands of two lists can be merged list by list first. -/
theorem mergeCommands_append (first second : List (Option Command)) :
    mergeCommands (first ++ second) =
      mergeCommands ((mergeCommands first).map some ++ (mergeCommands second).map some) := by
  rw [mergeCommands_eq_values, mergeCommands_eq_values (List.map _ _ ++ _), keyed_append,
    keyed_append, insertAll_append, insertAll_append, insertAll_keyed_mergeCommands,
    insertAll_keyed_mergeCommands]

/-- Merging merged commands changes nothing. -/
theorem mergeCommands_mergeCommands (commands : List (Option Command)) :
    mergeCommands ((mergeCommands commands).map some) = mergeCommands commands := by
  rw [mergeCommands_eq_values, insertAll_keyed_mergeCommands, ← mergeCommands_eq_values]

/-- A command that is kept is added under its key. -/
theorem mergeInto_of_survives {command : Command} (survives : command.survives = true)
    (merged : OrderedMap MergeKey Command) :
    mergeInto merged (some command) = merged.insert command.mergeKey command := by
  rw [mergeInto, if_pos survives]

/-- One command is merged to itself, if it is kept. -/
theorem mergeCommands_singleton (command : Option Command) :
    mergeCommands [command] = command.toList.filter Command.survives := by
  cases command with
  | none => rfl
  | some command =>
    cases survives : command.survives with
    | false => simp [mergeCommands_eq_values, keyed, survives, values]; rfl
    | true =>
      rw [mergeCommands, List.foldl_cons, mergeInto_of_survives survives, Option.toList_some,
        List.filter_cons_of_pos survives]
      rfl

/-- Of two commands that are kept, the second takes the place of the first when their keys agree. -/
theorem mergeCommands_pair {first second : Command} (firstKept : first.survives = true)
    (secondKept : second.survives = true) :
    mergeCommands [some first, some second] =
      if first.mergeKey = second.mergeKey then [second] else [first, second] := by
  have one : (∅ : OrderedMap MergeKey Command).insert first.mergeKey first =
      ⟨[(first.mergeKey, first)]⟩ := rfl
  rw [mergeCommands, List.foldl_cons, mergeInto_of_survives firstKept, List.foldl_cons,
    mergeInto_of_survives secondKept, one, List.foldl_nil]
  by_cases same : first.mergeKey = second.mergeKey
  · rw [if_pos same, OrderedMap.insert, insertEntry, if_pos same]
    rfl
  · rw [if_neg same, OrderedMap.insert, insertEntry, if_neg same]
    rfl

end ActionString
