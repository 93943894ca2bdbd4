import ActionString.Expected
import Mathlib

/-!
# The order of what was looked for

The items that a diagnostic lists are compared by their rank and then by their words. This is a
strict order in which any two items are comparable, so a set of items can be listed in one way only:
putting a list in order forgets in which order and how often its items were noted.
-/

namespace ActionString.Expected

/-- An item stands before the items of a higher rank, and before those of its own rank with greater
words. -/
theorem precedes_iff {first second : Expected} :
    first.precedes second = true ↔ first.rank < second.rank ∨
      first.rank = second.rank ∧ first.words < second.words := by
  rw [precedes, Bool.or_eq_true, Bool.and_eq_true, decide_eq_true_eq, decide_eq_true_eq,
    decide_eq_true_eq]

/-- No item stands before itself. -/
theorem not_precedes_self (item : Expected) : ¬item.precedes item = true := by
  rw [precedes_iff]
  rintro (less | ⟨-, less⟩)
  · exact Nat.lt_irrefl _ less
  · exact String.lt_irrefl _ less

/-- What stands before an item stands before all that the item stands before. -/
theorem precedes_trans {first second third : Expected} (before : first.precedes second = true)
    (after : second.precedes third = true) : first.precedes third = true := by
  rw [precedes_iff] at before after ⊢
  obtain less | ⟨same, less⟩ := before
  · obtain more | ⟨equal, -⟩ := after
    · exact .inl (Nat.lt_trans less more)
    · exact .inl (equal ▸ less)
  · obtain more | ⟨equal, more⟩ := after
    · exact .inl (same ▸ more)
    · exact .inr ⟨same.trans equal, String.lt_trans less more⟩

/-- An item is known from its rank and its words. -/
theorem eq_of_rank_of_words {first second : Expected} (rank : first.rank = second.rank)
    (words : first.words = second.words) : first = second := by
  cases first <;> cases second <;> simp_all [Expected.rank, Expected.words]

/-- Of two different items, one stands before the other. -/
theorem precedes_of_not_precedes {first second : Expected} (different : first ≠ second)
    (after : ¬first.precedes second = true) : second.precedes first = true := by
  rw [precedes_iff, not_or, not_and] at after
  rw [precedes_iff]
  obtain less | same := Nat.lt_or_eq_of_le (Nat.le_of_not_lt after.1)
  · exact .inl less
  · refine .inr ⟨same, Decidable.byContradiction fun more => different ?_⟩
    exact eq_of_rank_of_words same.symm (String.le_antisymm more (after.2 same.symm))

/-- Items that grow from place to place. -/
def Increasing (items : List Expected) : Prop :=
  items.Pairwise fun first second => first.precedes second = true

/-- Adding an item to increasing items puts it in its place. -/
theorem Increasing.addTo {items : List Expected} (increasing : Increasing items)
    (item : Expected) : Increasing (addTo item items) := by
  induction items with
  | nil => exact List.pairwise_singleton _ _
  | cons first rest ih =>
    obtain ⟨least, others⟩ := List.pairwise_cons.mp increasing
    rw [Expected.addTo]
    split
    · exact increasing
    · rename_i different
      split
      · rename_i before
        refine List.pairwise_cons.mpr ⟨fun other member => ?_, increasing⟩
        obtain rfl | later := List.mem_cons.mp member
        · exact before
        · exact precedes_trans before (least other later)
      · rename_i after
        refine List.pairwise_cons.mpr ⟨fun other member => ?_, ih others⟩
        obtain rfl | later := mem_addTo.mp member
        · exact precedes_of_not_precedes different after
        · exact least other later

/-- Ordered items are increasing. -/
theorem increasing_ordered (items : List Expected) : Increasing (ordered items) := by
  induction items with
  | nil => exact List.Pairwise.nil
  | cons first rest ih => exact ih.addTo first

/-- Increasing items do not repeat. -/
theorem Increasing.nodup {items : List Expected} (increasing : Increasing items) :
    items.Nodup := by
  refine List.Pairwise.imp (fun {first second} before same => ?_) increasing
  subst same
  exact not_precedes_self first before

/-- Increasing items are known from what is among them. -/
theorem Increasing.eq_of_mem_iff {first second : List Expected} (increasing : Increasing first)
    (other : Increasing second) (same : ∀ item, item ∈ first ↔ item ∈ second) : first = second := by
  refine List.Perm.eq_of_pairwise (fun a b _ _ before after => ?_) increasing other
    ((List.perm_ext_iff_of_nodup increasing.nodup other.nodup).mpr same)
  exact absurd (precedes_trans before after) (not_precedes_self a)

/-- Lists of the same items, in any order and with any repetitions, are put in the same order. -/
theorem ordered_eq_of_mem_iff {items others : List Expected}
    (same : ∀ item, item ∈ items ↔ item ∈ others) : ordered items = ordered others :=
  (increasing_ordered items).eq_of_mem_iff (increasing_ordered others) fun item => by
    rw [mem_ordered, mem_ordered, same]

end ActionString.Expected
