import ActionString.Text.Folding
import ActionString.Text.Lowercase

/-!
# Lower case and the case of ASCII letters

A text in lower case has no ASCII capitals left, and which letters of a text were ASCII capitals
does not show in its lower case: neither in the letters themselves nor in the form of a sigma among
them.
-/

namespace ActionString.Text

/-- A character past the ASCII capitals has no other ASCII lower case. -/
theorem toLower_of_lt {c : Char} (beyond : 'Z'.toNat < c.toNat) : c.toLower = c :=
  dif_neg fun capital => Nat.not_lt_of_le capital.2 beyond

/-- What is the same for an ASCII capital and its small letter is the same for every character and
its ASCII lower case. -/
theorem apply_toLower {α : Type} {f : Char → α}
    (letters : ∀ n < 26, f (Char.ofNat ('A'.toNat + n)).toLower = f (Char.ofNat ('A'.toNat + n)))
    (c : Char) : f c.toLower = f c := by
  by_cases capital : c.val ≥ 'A'.val ∧ c.val ≤ 'Z'.val
  · have least : 'A'.toNat ≤ c.toNat := capital.1
    have greatest : c.toNat ≤ 'Z'.toNat := capital.2
    have same := letters (c.toNat - 'A'.toNat) (Nat.sub_lt_left_of_lt_add least
      (Nat.lt_succ_of_le greatest))
    rwa [Nat.add_sub_cancel' least, Char.ofNat_toNat] at same
  · rw [show c.toLower = c from dif_neg capital]

/-- A code point past the ASCII capitals is that of no other ASCII lower case. -/
theorem toLower_ofNat_of_lt {n : Nat} (beyond : 'Z'.toNat < n) :
    (Char.ofNat n).toLower = Char.ofNat n := by
  by_cases valid : n.isValidChar
  · have same : (Char.ofNat n).toNat = n := by
      rw [Char.ofNat, dif_pos valid]
      rfl
    exact toLower_of_lt (Nat.lt_of_lt_of_eq beyond same.symm)
  · rw [Char.ofNat, dif_neg valid]
    rfl

/-- The lower case of a character has no ASCII capitals. -/
theorem toLower_of_mem_lowerChar {c d : Char} (member : d ∈ lowerChar c) : d.toLower = d := by
  unfold lowerChar at member
  split at member
  next =>
    rw [List.mem_singleton] at member
    rw [member]
    exact apply_toLower (f := Char.toLower) (by decide) c
  next great =>
    split at member
    next =>
      obtain rfl | rfl : d = 'i' ∨ d = Char.ofNat 0x307 := by simpa using member
      · rfl
      · rfl
    next =>
      split at member
      next run found =>
        -- No run leads back to the ASCII capitals.
        have beyond : ∀ run ∈ caseRuns, ('Z'.toNat : Int) < run.first + run.shift := by
          decide +kernel
        have inside := beyond run (List.mem_of_find?_eq_some found)
        have within := @List.find?_some _ (fun run : CaseRun => run.contains c.toNat) _ _ found
        simp only [CaseRun.contains, Bool.and_eq_true, decide_eq_true_eq] at within
        rw [List.mem_singleton] at member
        rw [member]
        exact toLower_ofNat_of_lt (by omega)
      next =>
        rw [List.mem_singleton] at member
        rw [member]
        exact toLower_of_lt (Nat.lt_of_lt_of_le (by decide) (Nat.le_of_not_lt great))

/-- The lower case of a text has no ASCII capitals. -/
theorem toLower_of_mem_lowercase {text : String} {c : Char} (member : c ∈ (lowercase text).toList) :
    c.toLower = c := by
  have each (before text : List Char) : ∀ c ∈ lowerAfter before text, c.toLower = c := by
    induction text generalizing before with
    | nil => exact fun c member => nomatch member
    | cons d text ih =>
      rw [lowerAfter, List.forall_mem_append]
      refine ⟨fun c member => ?_, ih _⟩
      split at member
      next =>
        rw [List.mem_singleton] at member
        rw [member]
        split <;> rfl
      next => exact toLower_of_mem_lowerChar member
  rw [lowercase, String.toList_ofList] at member
  exact each [] text.toList c member

/-- The lower case of a text does not depend on the case of its ASCII letters. -/
theorem lowerAfter_map_toLower (before text : List Char) :
    lowerAfter (before.map Char.toLower) (text.map Char.toLower) = lowerAfter before text := by
  have ignored : isCaseIgnorable ∘ Char.toLower = isCaseIgnorable :=
    funext (apply_toLower (by decide +kernel))
  have cased : isCased ∘ Char.toLower = isCased := funext (apply_toLower (by decide))
  have first (text : List Char) : casedFirst (text.map Char.toLower) = casedFirst text := by
    rw [casedFirst, List.dropWhile_map, List.head?_map, Option.map_map, ignored, cased]
    rfl
  induction text generalizing before with
  | nil => rfl
  | cons c rest ih =>
    have sigma : c.toLower = capitalSigma ↔ c = capitalSigma :=
      Iff.of_eq (apply_toLower (f := (· = capitalSigma)) (by decide) c)
    have lower : lowerChar c.toLower = lowerChar c := apply_toLower (by decide) c
    rw [List.map_cons, lowerAfter, lowerAfter, ← List.map_cons, ih, first, first, lower]
    simp only [sigma]

/-- Texts that agree up to the case of ASCII letters have one lower case. -/
theorem lowercase_congr {first second : String} (same : foldCase first = foldCase second) :
    lowercase first = lowercase second := by
  rw [foldCase, foldCase, String.ofList_inj] at same
  rw [lowercase, lowercase, ← lowerAfter_map_toLower, same, lowerAfter_map_toLower]

/-- The ASCII letters of a text in lower case are small. -/
theorem foldCase_lowercase (text : String) : foldCase (lowercase text) = lowercase text := by
  have small := List.map_congr_left fun c member => @toLower_of_mem_lowercase text c member
  rw [foldCase, small, List.map_id', String.ofList_toList]

end ActionString.Text
