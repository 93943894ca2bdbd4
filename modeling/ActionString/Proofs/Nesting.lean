import ActionString.Proofs.Furthest
import Mathlib

/-!
# What a failure keeps of a trace

The misses of a trace are recorded one after the other while the look-aheads under way are counted.
In the end there is the greatest offset of the misses outside look-aheads, with all that was missed
there, in its order and as often as it was missed. No rule leaves a look-ahead under way, so what a
rule misses is recorded exactly when the rule is not tried by a look-ahead.
-/

namespace ActionString.Grammar

open Rule

/-- The failure at the greatest offset of some misses, or at the beginning if there are none, with
what is missed there. -/
def Failure.furthestOf (misses : List (Nat × Expected)) : Failure :=
  let offset := (misses.map Prod.fst).max?.getD 0
  ⟨offset, (misses.filter fun miss => miss.1 = offset).map Prod.snd⟩

/-- The offsets of misses in a text of a size. -/
def offsets (size : Nat) (misses : List (List Char × Expected)) : List (Nat × Expected) :=
  misses.map fun miss => (size - Text.byteSize miss.1, miss.2)

/-- The furthest place is the greatest offset. -/
theorem furthest_eq (misses : List (Nat × Expected)) :
    furthest misses = (misses.map Prod.fst).max?.getD 0 := by
  cases misses with
  | nil => rfl
  | cons miss misses =>
    rw [furthest, ← List.foldl_map, List.map_cons, List.max?_cons', Option.getD_some,
      List.foldl_cons, Nat.zero_max]

/-- The failure of a nested trace is that of what it misses. -/
theorem Failure.ofTrace_of_nested {trace : List Event} {misses : List (List Char × Expected)}
    (nested : Nested trace misses) (size : Nat) :
    ofTrace size trace = furthestOf (offsets size misses) := by
  have recorded : ofMisses size misses = (offsets size misses).foldl
      (fun failure miss => failure.record miss.1 miss.2) start := by
    rw [offsets, List.foldl_map]
    rfl
  rw [ofTrace_eq, nested.outside_eq, if_pos rfl, recorded, foldl_record, furthest_eq]
  rfl

/-- The failure of a nested trace is at the greatest offset of what is missed outside look-aheads
and lists what was missed there, in order and with repetitions. The trace of each rule is nested:
where no look-ahead is under way, it misses what is outside its own, and where one is, nothing; and
as many are under way after it as before. So the failure of a rejected text is that of all that its
trace misses outside look-aheads. -/
theorem failure_nested :
    (∀ size trace misses, Nested trace misses →
        Failure.ofTrace size trace = Failure.furthestOf (offsets size misses)) ∧
      (∀ {α : Type} (rule : Rule α) [Built rule] (text : List Char),
        ∃ misses, Nested (rule text).trace misses ∧
          ∀ depth, outside depth (rule text).trace = (if depth = 0 then misses else []) ∧
            depthAfter depth (rule text).trace = depth) ∧
      ∀ text failure, read text = .error failure →
        ∃ misses, Nested (clauses text).trace misses ∧
          failure = Failure.furthestOf (offsets (Text.byteSize text) misses) := by
  refine ⟨fun size trace misses nested => Failure.ofTrace_of_nested nested size, ?_, ?_⟩
  · intro α rule built text
    obtain ⟨misses, nested⟩ := built.exists_nested text
    exact ⟨misses, nested, fun depth => ⟨nested.outside_eq depth, nested.depthAfter_eq depth⟩⟩
  · intro text failure rejected
    obtain ⟨-, rfl⟩ := read_eq_error_iff.mp rejected
    have built : Built clauses := inferInstance
    obtain ⟨misses, nested⟩ := built.exists_nested text
    exact ⟨misses, nested, Failure.ofTrace_of_nested nested _⟩

set_option maxRecDepth 100000 in
/-- What is missed inside a look-ahead does not count, be it ever so far; a flag with the end behind
it leaves no look-ahead under way; and a text is rejected where the end was missed. -/
theorem failure_nested_digit :
    Failure.ofTrace 2 [.missed ['a', 'b'] (.literal "c"), .missed ['b'] (.literal "d"), .enter,
        .missed [] (.charClass "a digit"), .leave, .missed ['a', 'b'] .endOfInput,
        .missed ['b'] .endOfInput, .missed ['b'] (.literal "d")] =
      ⟨1, [.literal "d", .endOfInput, .literal "d"]⟩ ∧
    (∃ misses, Nested (Word.whole (Argument.status .loops) "loop".toList).trace misses ∧
      depthAfter 1 (Word.whole (Argument.status .loops) "loop".toList).trace = 1) ∧
    ∃ misses, Nested (clauses "^".toList).trace misses ∧
      Failure.furthestOf (offsets 1 misses) = ⟨0, [.literal "create", .literal "activate",
        .literal "bump", .literal "adone", .literal "end", .literal ";", .endOfInput]⟩ := by
  have missed (text : List Char) (expected : Expected) {trace misses} (rest : Nested trace misses) :
      Nested (.missed text expected :: trace) ((text, expected) :: misses) := .missed rest
  have nested := missed ['a', 'b'] (.literal "c") <| missed ['b'] (.literal "d") <|
    .ahead (missed [] (.charClass "a digit") .nil) <| missed ['a', 'b'] .endOfInput <|
      missed ['b'] .endOfInput <| missed ['b'] (.literal "d") .nil
  have rejected : read "^".toList = .error ⟨0, [.literal "create", .literal "activate",
      .literal "bump", .literal "adone", .literal "end", .literal ";", .endOfInput]⟩ := by cbv
  obtain ⟨misses, traced, same⟩ := failure_nested.2.2 _ _ rejected
  obtain ⟨others, whole, balanced⟩ :=
    failure_nested.2.1 (Word.whole (Argument.status .loops)) "loop".toList
  exact ⟨(failure_nested.1 2 _ _ nested).trans (by decide), ⟨others, whole, (balanced 1).2⟩,
    misses, traced, same.symm⟩

end ActionString.Grammar
