import ActionString.Proofs.Furthest

/-!
# Where rules miss something

What a rule misses outside look-aheads, it misses at a place of the text: behind what it has read
of it so far. A sequence misses what its first rule misses, or what the next one misses behind what
the first has read; a choice misses what the alternatives miss that are tried.
-/

namespace ActionString.Grammar

open Rule Word

variable {α β : Type}

/-- A rule for a text looks for an item between two parts of the text, outside look-aheads, and
does not find it. -/
def Misses (rule : Rule α) (before after : List Char) (item : Expected) : Prop :=
  (after, item) ∈ outside 0 (rule (before ++ after)).trace

/-- An end of a text that holds another end of it is cut where that begins. -/
theorem exists_eq_append_of_suffix {before after rest : List Char}
    (outer : rest <:+ before ++ after) (inner : after <:+ rest) :
    ∃ front middle, before = front ++ middle ∧ rest = middle ++ after := by
  obtain ⟨front, whole⟩ := outer
  obtain ⟨middle, rfl⟩ := inner
  rw [← List.append_assoc] at whole
  exact ⟨front, middle, (List.append_cancel_right whole).symm, rfl⟩

/-- What a rule misses outside look-aheads, it misses at an end of the text, where it does not
stand. -/
theorem trueOf_mem_outside {rule : Rule α} [Built rule] {text after : List Char} {item : Expected}
    (member : (after, item) ∈ outside 0 (rule text).trace) :
    after <:+ text ∧ ¬item.StandsAt after :=
  Built.trueOf_trace inferInstance text _ (missed_of_mem_outside member)

/-- A sequence misses what its rules miss. -/
theorem mem_outside_bind_iff {rule : Rule α} [built : Built rule] {next : α → Rule β}
    {text after : List Char} {item : Expected} :
    (after, item) ∈ outside 0 ((rule >>= next) text).trace ↔
      (after, item) ∈ outside 0 (rule text).trace ∨
        ∃ value rest, (rule text).result = some (value, rest) ∧
          (after, item) ∈ outside 0 (next value rest).trace := by
  rw [trace_bind, outside_append, built.depthAfter_trace, List.mem_append]
  refine or_congr Iff.rfl ?_
  cases (rule text).result with
  | none => simp [outside]
  | some pair =>
    obtain ⟨value, rest⟩ := pair
    simp

/-- A choice misses what the alternatives miss that are tried. -/
theorem mem_outside_orElse_iff {rule other : Rule α} [built : Built rule]
    {text after : List Char} {item : Expected} :
    (after, item) ∈ outside 0 (orElse rule other text).trace ↔
      (after, item) ∈ outside 0 (rule text).trace ∨
        (rule text).result = none ∧ (after, item) ∈ outside 0 (other text).trace := by
  rw [trace_orElse, outside_append, built.depthAfter_trace, List.mem_append]
  refine or_congr Iff.rfl ?_
  cases (rule text).result with
  | none => simp
  | some pair => simp [outside]

/-- A choice from a family is one of its rules. -/
theorem exists_of_result_firstOf_map {ι : Type} {family : ι → Rule α} {indices : List ι}
    {text : List Char} {found : α × List Char}
    (result : (firstOf (indices.map family) text).result = some found) :
    ∃ index ∈ indices, (family index text).result = some found := by
  induction indices with
  | nil => cases result
  | cons index indices ih =>
    rw [List.map_cons, result_firstOf_cons, Option.or_eq_some_iff] at result
    obtain first | ⟨-, later⟩ := result
    · exact ⟨index, .head _, first⟩
    · obtain ⟨other, member, same⟩ := ih later
      exact ⟨other, .tail _ member, same⟩

/-- What a choice from a family misses is missed by one of its rules. -/
theorem exists_of_mem_firstOf_map {ι : Type} {family : ι → Rule α} [∀ index, Built (family index)]
    {indices : List ι} {text : List Char} {miss : List Char × Expected}
    (member : miss ∈ outside 0 (firstOf (indices.map family) text).trace) :
    ∃ index ∈ indices, miss ∈ outside 0 (family index text).trace := by
  induction indices with
  | nil => cases member
  | cons index indices ih =>
    obtain first | ⟨-, later⟩ := mem_outside_orElse_iff.mp member
    · exact ⟨index, .head _, first⟩
    · obtain ⟨other, inside, same⟩ := ih later
      exact ⟨other, .tail _ inside, same⟩

namespace Misses

variable {before after : List Char} {item : Expected}

/-- What is missed does not stand at the place. -/
theorem not_standsAt {rule : Rule α} [Built rule] (misses : Misses rule before after item) :
    ¬item.StandsAt after :=
  (trueOf_mem_outside misses).2

/-- What is missed in a text is missed between two parts of it. -/
theorem of_mem {rule : Rule α} [Built rule] {text : List Char}
    (member : (after, item) ∈ outside 0 (rule text).trace) :
    ∃ before, text = before ++ after ∧ Misses rule before after item := by
  obtain ⟨before, rfl⟩ := (trueOf_mem_outside member).1
  exact ⟨before, rfl, member⟩

/-- What is missed at an end of a text within one of its parts. -/
theorem of_mem_suffix {rule : Rule β} [Built rule] {rest : List Char}
    (part : rest <:+ before ++ after) (member : (after, item) ∈ outside 0 (rule rest).trace) :
    ∃ front middle, before = front ++ middle ∧ rest = middle ++ after ∧
      Misses rule middle after item := by
  obtain ⟨front, middle, whole, rfl⟩ :=
    exists_eq_append_of_suffix part (trueOf_mem_outside member).1
  exact ⟨front, middle, whole, rfl, member⟩

/-- Reading nothing misses nothing. -/
theorem not_pure {value : α} : ¬Misses (pure value) before after item :=
  List.not_mem_nil

/-- No alternative misses nothing. -/
theorem not_nil : ¬Misses (firstOf ([] : List (Rule α))) before after item :=
  List.not_mem_nil

/-- Reading as far as a condition holds misses nothing. -/
theorem not_run {accepts : Char → Bool} : ¬Misses (Rule.run accepts) before after item :=
  List.not_mem_nil

/-- A look-ahead misses nothing. -/
theorem not_notAhead {rule : Rule α} [built : Built rule] :
    ¬Misses (notAhead rule) before after item := by
  obtain ⟨hidden, nested⟩ := built.exists_nested (before ++ after)
  have ahead : Nested (.enter :: (rule (before ++ after)).trace ++ [.leave]) [] := .ahead nested .nil
  intro misses
  change _ ∈ outside 0 (.enter :: (rule (before ++ after)).trace ++ [.leave]) at misses
  rw [ahead.outside_eq, if_pos rfl] at misses
  cases misses

/-- A rule by a plain function misses what it looks for, where it begins. -/
theorem expecting {expected : Expected} {read : List Char → Option (α × List Char)}
    (misses : Misses (Rule.expecting expected read) before after item) :
    before = [] ∧ item = expected ∧ read after = none := by
  unfold Misses Rule.expecting at misses
  cases found : read (before ++ after) with
  | some pair =>
    rw [found] at misses
    cases misses
  | none =>
    rw [found] at misses
    have same : (after, item) = (before ++ after, expected) := List.mem_singleton.mp misses
    rw [Prod.mk.injEq, List.self_eq_append_left] at same
    obtain ⟨rfl, rfl⟩ := same
    exact ⟨rfl, rfl, found⟩

/-- A fixed text is missed where it should begin. -/
theorem literal {word : String} (misses : Misses (Rule.literal word) before after item) :
    before = [] ∧ item = .literal word :=
  ⟨(expecting misses).1, (expecting misses).2.1⟩

/-- A word in any case is missed where it should begin. -/
theorem keyword {word : String} (misses : Misses (Rule.keyword word) before after item) :
    before = [] ∧ item = .literal word :=
  ⟨(expecting misses).1, (expecting misses).2.1⟩

/-- A word of a class is missed where it should begin. -/
theorem chars {kind : CharClass} (misses : Misses (Rule.chars kind) before after item) :
    before = [] ∧ item = .charClass kind.description :=
  ⟨(expecting misses).1, (expecting misses).2.1⟩

/-- A character of a class is missed where it should be. -/
theorem oneOf {kind : CharClass} (misses : Misses (Rule.oneOf kind) before after item) :
    before = [] ∧ item = .charClass kind.description :=
  ⟨(expecting misses).1, (expecting misses).2.1⟩

/-- What a sequence misses is missed by its first rule, or by the next one behind what the first
has read. -/
theorem bind {rule : Rule α} [Built rule] {next : α → Rule β} [∀ value, Built (next value)]
    (misses : Misses (rule >>= next) before after item) :
    Misses rule before after item ∨
      ∃ value front middle, before = front ++ middle ∧
        (rule (before ++ after)).result = some (value, middle ++ after) ∧
        Misses (next value) middle after item := by
  refine (mem_outside_bind_iff.mp misses).imp_right ?_
  rintro ⟨value, rest, found, member⟩
  obtain ⟨front, middle, whole, rfl, later⟩ := of_mem_suffix (Forward.suffix found) member
  exact ⟨value, front, middle, whole, found, later⟩

/-- A change of the value misses nothing. -/
theorem map {rule : Rule α} [Built rule] {change : α → β}
    (misses : Misses (change <$> rule) before after item) : Misses rule before after item := by
  obtain here | ⟨value, rest, -, later⟩ := mem_outside_bind_iff.mp misses
  · exact here
  · cases later

/-- A word is missed where its rule misses it. -/
theorem make {use : String → α} {rule : Rule (List Char)} [Built rule]
    (misses : Misses (Word.make use rule) before after item) : Misses rule before after item := by
  obtain here | ⟨_, _, _, _, _, later⟩ := bind misses
  · exact here
  · exact absurd later not_pure

/-- What a choice misses is missed by its first alternative, or by the others where that does not
apply. -/
theorem cons {rule : Rule α} {others : List (Rule α)} [Built rule]
    (misses : Misses (firstOf (rule :: others)) before after item) :
    Misses rule before after item ∨
      (rule (before ++ after)).result = none ∧ Misses (firstOf others) before after item :=
  mem_outside_orElse_iff.mp misses

/-- An optional word is missed where its rule misses it. -/
theorem optional {rule : Rule α} [Built rule]
    (misses : Misses (Rule.optional rule) before after item) : Misses rule before after item := by
  obtain first | ⟨-, second⟩ := mem_outside_orElse_iff.mp misses
  · exact map first
  · exact absurd second not_pure

/-- Behind spaces, a rule misses what it misses after them. -/
theorem spaced {rule : Rule α} [Built rule]
    (misses : Misses (Rule.spaced rule) before after item) :
    ∃ front middle, before = front ++ middle ∧ strip (before ++ after) = middle ++ after ∧
      Misses rule middle after item := by
  rw [Misses, spaced_eq] at misses
  exact of_mem_suffix (strip_suffix _) misses

/-- An optional word behind spaces is missed after them. -/
theorem spacedOptional {rule : Rule α} [Built rule]
    (misses : Misses (Rule.spacedOptional rule) before after item) :
    ∃ front middle, before = front ++ middle ∧ strip (before ++ after) = middle ++ after ∧
      Misses rule middle after item :=
  spaced (optional misses)

/-- What a repetition misses is missed by its rule behind spaces, or by the repetition behind what
the rule has read. -/
theorem spacedMany {rule : Rule α} [Built rule]
    (misses : Misses (Rule.spacedMany rule) before after item) :
    (∃ front middle, before = front ++ middle ∧ strip (before ++ after) = middle ++ after ∧
      Misses rule middle after item) ∨
    ∃ value front middle, before = front ++ middle ∧
      (rule (strip (before ++ after))).result = some (value, middle ++ after) ∧
      Misses (Rule.spacedMany rule) middle after item := by
  have here (member : (after, item) ∈ outside 0 (rule (strip (before ++ after))).trace) :=
    of_mem_suffix (strip_suffix (before ++ after)) member
  unfold Misses at misses
  cases first : (rule (strip (before ++ after))).result with
  | none =>
    rw [spacedMany_of_none first] at misses
    exact .inl (here misses)
  | some pair =>
    obtain ⟨value, rest⟩ := pair
    by_cases shorter : rest.length < (before ++ after).length
    · rw [spacedMany_of_some first shorter, outside_append, Built.depthAfter_trace inferInstance,
        List.mem_append] at misses
      refine misses.imp here fun member => ?_
      obtain ⟨front, middle, whole, rfl, later⟩ :=
        of_mem_suffix ((Forward.suffix first).trans (strip_suffix _)) member
      exact ⟨value, front, middle, whole, rfl, later⟩
    · rw [spacedMany_of_idle first shorter] at misses
      exact .inl (here misses)

end Misses

end ActionString.Grammar
