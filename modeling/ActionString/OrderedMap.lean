/-!
# Maps that keep their order

An ordered map is a list of keys with their values, in the order in which the keys were first given.
Giving a key again replaces its value where it stands.
-/

namespace ActionString

/-- Keys with their values, in the order in which the keys were first given. -/
structure OrderedMap (κ ν : Type) where
  entries : List (κ × ν)
  deriving DecidableEq, Repr

namespace OrderedMap

variable {κ ν : Type}

/-- The map without keys. -/
def empty : OrderedMap κ ν := ⟨[]⟩

instance : EmptyCollection (OrderedMap κ ν) := ⟨empty⟩
instance : Inhabited (OrderedMap κ ν) := ⟨empty⟩

/-- The keys in their order. -/
def keys (map : OrderedMap κ ν) : List κ := map.entries.map Prod.fst

/-- The values in the order of their keys. -/
def values (map : OrderedMap κ ν) : List ν := map.entries.map Prod.snd

/-- The number of keys. -/
def size (map : OrderedMap κ ν) : Nat := map.entries.length

/-- Whether there is no key. -/
def isEmpty (map : OrderedMap κ ν) : Bool := map.entries.isEmpty

variable [DecidableEq κ]

/-- The value of a key. -/
def get? (map : OrderedMap κ ν) (key : κ) : Option ν := map.entries.lookup key

/-- Whether a key has a value. -/
def contains (map : OrderedMap κ ν) (key : κ) : Bool := map.entries.any fun entry => entry.1 = key

/-- Gives a value to a key: in place when the key is there, at the end when it is not. -/
def insertEntry (key : κ) (value : ν) : List (κ × ν) → List (κ × ν)
  | [] => [(key, value)]
  | entry :: rest =>
    if entry.1 = key then (key, value) :: rest else entry :: insertEntry key value rest

/-- Gives a value to a key, keeping the place of a key that is there. -/
def insert (map : OrderedMap κ ν) (key : κ) (value : ν) : OrderedMap κ ν :=
  ⟨insertEntry key value map.entries⟩

/-- Puts the key `fresh` in the place of the key `old`, with its value. -/
def renameEntry (old fresh : κ) : List (κ × ν) → List (κ × ν)
  | [] => []
  | entry :: rest =>
    if entry.1 = old then (fresh, entry.2) :: rest else entry :: renameEntry old fresh rest

/-- Renames a key in place. Nothing changes when `old` is absent or `fresh` is there already. -/
def rename (map : OrderedMap κ ν) (old fresh : κ) : OrderedMap κ ν :=
  if map.contains fresh then map else ⟨renameEntry old fresh map.entries⟩

omit [DecidableEq κ] in
/-- The empty map has no keys. -/
@[simp] theorem keys_empty : (∅ : OrderedMap κ ν).keys = [] := rfl

/-- A map contains exactly its keys. -/
theorem contains_iff_mem_keys (map : OrderedMap κ ν) (key : κ) :
    map.contains key = true ↔ key ∈ map.keys := by
  simp only [contains, keys, List.any_eq_true, decide_eq_true_eq, List.mem_map]

/-- The keys after giving a value: those before, and the new one at the end if it was absent. -/
theorem keys_insert (map : OrderedMap κ ν) (key : κ) (value : ν) :
    (map.insert key value).keys = if key ∈ map.keys then map.keys else map.keys ++ [key] := by
  obtain ⟨entries⟩ := map
  simp only [insert, keys]
  induction entries with
  | nil => simp [insertEntry]
  | cons entry rest ih =>
    by_cases same : entry.1 = key
    · simp [insertEntry, same]
    · by_cases member : key ∈ rest.map Prod.fst
      · simp only [insertEntry, same, if_false, List.map_cons, ih, member, if_true,
          List.mem_cons, or_true]
      · simp only [insertEntry, same, if_false, List.map_cons, ih, member, List.mem_cons,
          Ne.symm same, or_self, List.cons_append]

/-- A key that is absent is given its value at the end. -/
theorem insert_of_notMem {map : OrderedMap κ ν} {key : κ} (absent : key ∉ map.keys) (value : ν) :
    map.insert key value = ⟨map.entries ++ [(key, value)]⟩ := by
  obtain ⟨entries⟩ := map
  simp only [insert, keys] at absent ⊢
  congr 1
  induction entries with
  | nil => rfl
  | cons entry rest ih =>
    rw [List.map_cons, List.mem_cons, not_or] at absent
    rw [insertEntry, if_neg (Ne.symm absent.1), ih absent.2, List.cons_append]

/-- The key that was given a value has it. -/
theorem get?_insert_self (map : OrderedMap κ ν) (key : κ) (value : ν) :
    (map.insert key value).get? key = some value := by
  obtain ⟨entries⟩ := map
  simp only [insert, get?]
  induction entries with
  | nil => simp [insertEntry]
  | cons entry rest ih =>
    by_cases same : entry.1 = key
    · simp [insertEntry, same]
    · simp only [insertEntry, same, if_false]
      rw [List.lookup_cons]
      simp only [beq_eq_false_iff_ne.mpr (Ne.symm same), ih]

/-- Giving a value to one key leaves the others as they were. -/
theorem get?_insert_of_ne (map : OrderedMap κ ν) {key other : κ} (different : other ≠ key)
    (value : ν) : (map.insert key value).get? other = map.get? other := by
  obtain ⟨entries⟩ := map
  simp only [insert, get?]
  induction entries with
  | nil => simp [insertEntry, List.lookup_cons, beq_eq_false_iff_ne.mpr different]
  | cons entry rest ih =>
    by_cases same : entry.1 = key
    · subst same
      simp only [insertEntry, if_true]
      rw [List.lookup_cons, List.lookup_cons]
      simp only [beq_eq_false_iff_ne.mpr different]
    · simp only [insertEntry, same, if_false]
      rw [List.lookup_cons, List.lookup_cons, ih]

/-- With different keys, renaming one of them puts `fresh` in its place and leaves the others. -/
theorem renameEntry_of_nodup {entries : List (κ × ν)} (distinct : (entries.map Prod.fst).Nodup)
    (old fresh : κ) :
    renameEntry old fresh entries =
      entries.map fun entry => if entry.1 = old then (fresh, entry.2) else entry := by
  induction entries with
  | nil => rfl
  | cons entry rest ih =>
    rw [List.map_cons, List.nodup_cons] at distinct
    by_cases same : entry.1 = old
    · have others : ∀ other ∈ rest, other.1 ≠ old := fun other member equal =>
        distinct.1 (same ▸ equal ▸ List.mem_map_of_mem member)
      rw [renameEntry, if_pos same, List.map_cons, if_pos same]
      congr 1
      refine ((List.map_congr_left fun other member => ?_).trans (List.map_id rest)).symm
      rw [if_neg (others other member)]
      rfl
    · rw [renameEntry, if_neg same, List.map_cons, if_neg same, ih distinct.2]

end OrderedMap

end ActionString
