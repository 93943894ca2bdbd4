import ActionString.OrderedMap
import Mathlib.Data.List.Induction
import Mathlib.Data.List.Nodup

/-!
# Keys of ordered maps

Neither giving values to keys nor renaming them repeats a key. A map is filled by giving values to
keys one after the other: a key keeps its first place and has its last value, so filling a map with
the entries of a filled map comes to the same as filling it with what that map was filled with.
-/

namespace ActionString.OrderedMap

variable {κ ν : Type} [DecidableEq κ]

/-- Gives values to keys, one after the other. -/
def insertAll (map : OrderedMap κ ν) (entries : List (κ × ν)) : OrderedMap κ ν :=
  entries.foldl (fun map entry => map.insert entry.1 entry.2) map

@[simp] theorem insertAll_nil (map : OrderedMap κ ν) : map.insertAll [] = map := rfl

@[simp] theorem insertAll_cons (map : OrderedMap κ ν) (entry : κ × ν) (entries : List (κ × ν)) :
    map.insertAll (entry :: entries) = (map.insert entry.1 entry.2).insertAll entries := rfl

/-- Filling goes on where it stopped. -/
theorem insertAll_append (map : OrderedMap κ ν) (first second : List (κ × ν)) :
    map.insertAll (first ++ second) = (map.insertAll first).insertAll second :=
  List.foldl_append

/-- The keys with a value are those that are there. -/
theorem get?_isSome_iff {map : OrderedMap κ ν} {key : κ} :
    (map.get? key).isSome = true ↔ key ∈ map.keys := by
  rw [get?, List.lookup_isSome_iff, keys, List.mem_map]
  exact exists_congr fun entry => and_congr_right fun _ => by rw [beq_iff_eq, eq_comm]

/-- A key that is given a value is there afterwards. -/
theorem mem_keys_insert {map : OrderedMap κ ν} {key other : κ} (value : ν) :
    other ∈ (map.insert key value).keys ↔ other = key ∨ other ∈ map.keys := by
  rw [keys_insert]
  split
  · rename_i there
    constructor
    · exact Or.inr
    · rintro (rfl | before)
      · exact there
      · exact before
  · rw [List.mem_append, List.mem_singleton]
    exact or_comm

/-- Giving a value to a key does not repeat keys. -/
theorem nodup_keys_insert {map : OrderedMap κ ν} (distinct : map.keys.Nodup) (key : κ) (value : ν) :
    (map.insert key value).keys.Nodup := by
  rw [keys_insert]
  split
  · exact distinct
  · rename_i absent
    rw [← List.concat_eq_append]
    exact distinct.concat absent

/-- Filling does not repeat keys. -/
theorem nodup_keys_insertAll {map : OrderedMap κ ν} (distinct : map.keys.Nodup)
    (entries : List (κ × ν)) : (map.insertAll entries).keys.Nodup := by
  induction entries generalizing map with
  | nil => exact distinct
  | cons entry entries ih => exact ih (nodup_keys_insert distinct entry.1 entry.2)

/-- An entry is the one that was given, or was there before. -/
theorem eq_or_mem_of_mem_insert {map : OrderedMap κ ν} {key : κ} {value : ν} {entry : κ × ν}
    (member : entry ∈ (map.insert key value).entries) :
    entry = (key, value) ∨ entry ∈ map.entries := by
  obtain ⟨entries⟩ := map
  simp only [insert] at member ⊢
  induction entries with
  | nil => exact .inl (List.mem_singleton.mp member)
  | cons first rest ih =>
    rw [insertEntry] at member
    split at member
    · obtain same | inside := List.mem_cons.mp member
      · exact .inl same
      · exact .inr (.tail _ inside)
    · obtain rfl | inside := List.mem_cons.mp member
      · exact .inr (.head _)
      · exact (ih inside).imp_right (List.Mem.tail _)

/-- A filled map has no other entries than those it was filled with. -/
theorem mem_of_mem_insertAll {map : OrderedMap κ ν} {entries : List (κ × ν)} {entry : κ × ν}
    (member : entry ∈ (map.insertAll entries).entries) : entry ∈ map.entries ∨ entry ∈ entries := by
  induction entries generalizing map with
  | nil => exact .inl member
  | cons first rest ih =>
    obtain before | later := ih member
    · obtain rfl | there := eq_or_mem_of_mem_insert before
      · exact .inr (.head _)
      · exact .inl there
    · exact .inr (.tail _ later)

/-- A key is not renamed to one that is there. -/
theorem rename_of_mem {map : OrderedMap κ ν} {fresh : κ} (taken : fresh ∈ map.keys) (old : κ) :
    map.rename old fresh = map := by
  rw [rename, if_pos ((contains_iff_mem_keys map fresh).mpr taken)]

/-- A key is renamed to one that is absent. -/
theorem rename_of_notMem {map : OrderedMap κ ν} {fresh : κ} (absent : fresh ∉ map.keys) (old : κ) :
    map.rename old fresh = ⟨renameEntry old fresh map.entries⟩ := by
  have missing : ¬map.contains fresh = true := fun there =>
    absent ((contains_iff_mem_keys map fresh).mp there)
  rw [rename, if_neg missing]

/-- Renaming a key in a map with different keys. -/
theorem entries_rename {map : OrderedMap κ ν} (distinct : map.keys.Nodup) {old fresh : κ}
    (absent : fresh ∉ map.keys) :
    (map.rename old fresh).entries =
      map.entries.map fun entry => if entry.1 = old then (fresh, entry.2) else entry := by
  rw [rename_of_notMem absent]
  exact renameEntry_of_nodup distinct old fresh

/-- Renaming does not repeat keys. -/
theorem nodup_keys_rename {map : OrderedMap κ ν} (distinct : map.keys.Nodup) (old fresh : κ) :
    (map.rename old fresh).keys.Nodup := by
  by_cases taken : fresh ∈ map.keys
  · rw [rename_of_mem taken]
    exact distinct
  · have names : (map.rename old fresh).keys =
        map.keys.map fun key => if key = old then fresh else key := by
      rw [keys, keys, entries_rename distinct taken, List.map_map, List.map_map]
      refine List.map_congr_left fun entry _ => ?_
      dsimp only [Function.comp_apply]
      split <;> rfl
    rw [names]
    refine distinct.map_on fun first memberFirst second memberSecond same => ?_
    split at same <;> split at same
    · rw [‹first = _›, ‹second = _›]
    · exact absurd (same ▸ memberSecond) taken
    · exact absurd (same ▸ memberFirst) taken
    · exact same

/-- Of two values given to a key in turn, the second counts. -/
theorem insert_insert (map : OrderedMap κ ν) (key : κ) (old new : ν) :
    (map.insert key old).insert key new = map.insert key new := by
  obtain ⟨entries⟩ := map
  simp only [insert]
  congr 1
  induction entries with
  | nil => simp [insertEntry]
  | cons entry rest ih =>
    by_cases same : entry.1 = key
    · simp [insertEntry, same]
    · simp [insertEntry, same, ih]

/-- A key that is there can be given its value before another key or after it. -/
theorem insert_comm {map : OrderedMap κ ν} {key other : κ} (there : key ∈ map.keys)
    (different : other ≠ key) (value otherValue : ν) :
    (map.insert other otherValue).insert key value =
      (map.insert key value).insert other otherValue := by
  obtain ⟨entries⟩ := map
  simp only [insert, keys] at there ⊢
  congr 1
  induction entries with
  | nil => simp at there
  | cons entry rest ih =>
    by_cases same : entry.1 = key
    · simp [insertEntry, same, Ne.symm different]
    · rw [List.map_cons, List.mem_cons] at there
      have later := ih (there.resolve_left (Ne.symm same))
      by_cases here : entry.1 = other
      · simp [insertEntry, here, different]
      · simp [insertEntry, same, here, later]

/-- A key that is there can be given its value before other keys or after them. -/
theorem insert_insertAll {map : OrderedMap κ ν} {key : κ} (there : key ∈ map.keys)
    {entries : List (κ × ν)} (absent : key ∉ entries.map Prod.fst) (value : ν) :
    (map.insertAll entries).insert key value = (map.insert key value).insertAll entries := by
  induction entries generalizing map with
  | nil => rfl
  | cons entry entries ih =>
    rw [List.map_cons, List.mem_cons, not_or] at absent
    have still : key ∈ (map.insert entry.1 entry.2).keys := (mem_keys_insert _).mpr (.inr there)
    rw [insertAll_cons, insertAll_cons, ih still absent.2,
      insert_comm there (Ne.symm absent.1)]

/-- Filling a map with the entries of another, to which a key was added, adds the key. -/
theorem insertAll_insertEntry (map : OrderedMap κ ν) {entries : List (κ × ν)}
    (distinct : (entries.map Prod.fst).Nodup) (key : κ) (value : ν) :
    map.insertAll (insertEntry key value entries) = (map.insertAll entries).insert key value := by
  induction entries generalizing map with
  | nil => rfl
  | cons entry rest ih =>
    rw [List.map_cons, List.nodup_cons] at distinct
    by_cases same : entry.1 = key
    · subst same
      have there : entry.1 ∈ (map.insert entry.1 entry.2).keys := (mem_keys_insert _).mpr (.inl rfl)
      rw [insertEntry, if_pos rfl, insertAll_cons, insertAll_cons,
        insert_insertAll there distinct.1, insert_insert]
    · rw [insertEntry, if_neg same, insertAll_cons, insertAll_cons, ih _ distinct.2]

/-- Filling a map with the entries of a filled map is filling it with what that one was filled
with. -/
theorem insertAll_entries_insertAll (map : OrderedMap κ ν) (entries : List (κ × ν)) :
    map.insertAll ((∅ : OrderedMap κ ν).insertAll entries).entries = map.insertAll entries := by
  induction entries using List.reverseRecOn with
  | nil => rfl
  | append_singleton entries entry ih =>
    have nothing : (∅ : OrderedMap κ ν).keys.Nodup := List.nodup_nil
    have distinct := nodup_keys_insertAll nothing entries
    rw [insertAll_append, insertAll_append, insertAll_cons, insertAll_nil, insertAll_cons,
      insertAll_nil, insert, insertAll_insertEntry _ distinct, ih]

omit [DecidableEq κ] in
/-- Without its repetitions, a list with one more member ends with it if it is new. -/
theorem eraseDups_concat {α : Type} [BEq α] [LawfulBEq α] (members : List α) (member : α)
    [Decidable (member ∈ members)] :
    (members ++ [member]).eraseDups =
      if member ∈ members then members.eraseDups else members.eraseDups ++ [member] := by
  rw [List.eraseDups_append]
  split
  · rename_i there
    simp [List.removeAll, there]
  · rename_i absent
    simp [List.removeAll, absent, List.eraseDups_cons]

/-- A filled map has the keys that it was filled with, in the order of their first places. -/
theorem keys_insertAll (entries : List (κ × ν)) :
    ((∅ : OrderedMap κ ν).insertAll entries).keys = (entries.map Prod.fst).eraseDups := by
  induction entries using List.reverseRecOn with
  | nil => rfl
  | append_singleton entries entry ih =>
    rw [insertAll_append, insertAll_cons, insertAll_nil, keys_insert, ih, List.map_append,
      List.map_singleton, eraseDups_concat]
    exact if_congr List.mem_eraseDups rfl rfl

/-- A key of a filled map has the last value that it was given. -/
theorem get?_insertAll (entries : List (κ × ν)) (key : κ) :
    ((∅ : OrderedMap κ ν).insertAll entries).get? key =
      ((entries.filter fun entry => entry.1 = key).getLast?).map Prod.snd := by
  induction entries using List.reverseRecOn with
  | nil => rfl
  | append_singleton entries entry ih =>
    rw [insertAll_append, insertAll_cons, insertAll_nil, List.filter_append]
    by_cases same : entry.1 = key
    · subst same
      rw [get?_insert_self, List.filter_cons_of_pos (by simp)]
      simp
    · rw [get?_insert_of_ne _ (Ne.symm same), ih, List.filter_cons_of_neg (by simpa using same)]
      simp

/-- In a map with different keys, an entry is found by its key. -/
theorem get?_of_mem {map : OrderedMap κ ν} (distinct : map.keys.Nodup) {entry : κ × ν}
    (member : entry ∈ map.entries) : map.get? entry.1 = some entry.2 := by
  obtain ⟨entries⟩ := map
  simp only [keys, get?] at distinct member ⊢
  induction entries with
  | nil => cases member
  | cons first rest ih =>
    rw [List.map_cons, List.nodup_cons] at distinct
    rw [List.lookup_cons]
    obtain rfl | later := List.mem_cons.mp member
    · simp
    · have other : entry.1 ≠ first.1 := fun same =>
        distinct.1 (same ▸ List.mem_map_of_mem later)
      simp only [beq_eq_false_iff_ne.mpr other]
      exact ih distinct.2 later

/-- In a map with different keys, a key has exactly the value that it has in an entry. -/
theorem get?_eq_some_iff {map : OrderedMap κ ν} (distinct : map.keys.Nodup) {key : κ} {value : ν} :
    map.get? key = some value ↔ (key, value) ∈ map.entries := by
  refine ⟨fun found => ?_, get?_of_mem distinct⟩
  have there : key ∈ map.keys := get?_isSome_iff.mp (by rw [found]; rfl)
  obtain ⟨entry, member, rfl⟩ := List.mem_map.mp there
  rw [get?_of_mem distinct member, Option.some.injEq] at found
  exact found ▸ member

/-- Maps with the same entries in different orders give a key the same value, when the keys are
different. -/
theorem get?_of_perm {first second : OrderedMap κ ν} (distinct : first.keys.Nodup)
    (same : first.entries.Perm second.entries) (key : κ) : first.get? key = second.get? key := by
  have names : first.keys.Perm second.keys := same.map Prod.fst
  by_cases there : key ∈ first.keys
  · obtain ⟨entry, member, rfl⟩ := List.mem_map.mp there
    rw [get?_of_mem distinct member,
      get?_of_mem (names.nodup_iff.mp distinct) (same.mem_iff.mp member)]
  · have absent {map : OrderedMap κ ν} (missing : key ∉ map.keys) : map.get? key = none := by
      rwa [← get?_isSome_iff, Bool.not_eq_true, Option.isSome_eq_false_iff,
        Option.isNone_iff_eq_none] at missing
    rw [absent there, absent fun member => there (names.mem_iff.mpr member)]

end ActionString.OrderedMap
