import ActionString.Proofs.Misses
import ActionString.Proofs.Reading
import Mathlib.Data.List.Induction

/-!
# The furthest miss

The failure of a rejected text is its furthest place at which something was missed outside
look-aheads, with all that was missed there. The end of the text is always missed in the end, so
there is such a place, and nothing of what is listed for it stands there.
-/

namespace ActionString

namespace Text

/-- A text that takes no bytes is empty. -/
theorem eq_nil_of_byteSize {text : List Char} (empty : byteSize text = 0) : text = [] := by
  cases text with
  | nil => rfl
  | cons c rest =>
    have positive := c.utf8Size_pos
    rw [byteSize_cons] at empty
    omega

/-- Ends of a text that take equally many bytes are the same. -/
theorem eq_of_suffix_of_byteSize {first second text : List Char} (suffixFirst : first <:+ text)
    (suffixSecond : second <:+ text) (same : byteSize first = byteSize second) :
    first = second := by
  wlog shorter : first <:+ second generalizing first second
  · obtain below | above := List.suffix_or_suffix_of_suffix suffixFirst suffixSecond
    · exact absurd below shorter
    · exact (this suffixSecond suffixFirst same.symm above).symm
  obtain ⟨front, rfl⟩ := shorter
  rw [byteSize_append] at same
  have empty : front = [] := eq_nil_of_byteSize (by omega)
  rw [empty, List.nil_append]

/-- An end of a text that takes no more bytes than another is no longer. -/
theorem length_le_of_byteSize_le {first second text : List Char} (suffixFirst : first <:+ text)
    (suffixSecond : second <:+ text) (within : byteSize first ≤ byteSize second) :
    first.length ≤ second.length := by
  obtain below | above := List.suffix_or_suffix_of_suffix suffixFirst suffixSecond
  · exact below.length_le
  · obtain ⟨front, rfl⟩ := above
    rw [byteSize_append] at within
    have empty : front = [] := eq_nil_of_byteSize (by omega)
    rw [empty, List.nil_append]

/-- A text is split behind the bytes of its front. -/
theorem splitAtByte_byteSize (front rest : List Char) :
    splitAtByte (byteSize front) (front ++ rest) = (front, rest) := by
  induction front with
  | nil =>
    cases rest with
    | nil => rfl
    | cons c rest =>
      have positive := c.utf8Size_pos
      have large : ¬c.utf8Size ≤ 0 := by omega
      rw [byteSize_nil, List.nil_append, splitAtByte, if_neg large]
  | cons c front ih =>
    have fits : c.utf8Size ≤ byteSize (c :: front) := by
      rw [byteSize_cons]
      omega
    have less : byteSize (c :: front) - c.utf8Size = byteSize front := by
      rw [byteSize_cons]
      omega
    rw [List.cons_append, splitAtByte, if_pos fits, less, ih]

end Text

namespace Grammar

open Rule

/-- The failure that misses come to when they are recorded one after the other. -/
def Failure.ofMisses (size : Nat) (misses : List (List Char × Expected)) : Failure :=
  misses.foldl (fun failure miss => failure.record (size - Text.byteSize miss.1) miss.2) start

/-- The failure of a trace is that of its misses outside look-aheads. -/
theorem Failure.ofTrace_eq (size : Nat) (trace : List Event) :
    ofTrace size trace = ofMisses size (outside 0 trace) := by
  have follows (depth : Nat) (failure : Failure) :
      (trace.foldl (Tracker.follow size) ⟨failure, depth⟩).failure = (outside depth trace).foldl
        (fun failure miss => failure.record (size - Text.byteSize miss.1) miss.2) failure := by
    induction trace generalizing depth failure with
    | nil => rfl
    | cons event rest ih =>
      rw [List.foldl_cons]
      cases event with
      | missed text expected =>
        by_cases top : depth = 0
        · simp [Tracker.follow, Event.depthAfter, outside, top, ih]
        · simp [Tracker.follow, Event.depthAfter, outside, top, ih]
      | enter => exact ih (depth + 1) failure
      | leave => exact ih (depth - 1) failure
  exact follows 0 start

/-- The greatest offset of some misses, or zero if there are none. -/
def furthest (misses : List (Nat × Expected)) : Nat :=
  misses.foldl (fun place miss => max place miss.1) 0

/-- A further miss moves the furthest place to its own if that is greater. -/
theorem furthest_concat (misses : List (Nat × Expected)) (miss : Nat × Expected) :
    furthest (misses ++ [miss]) = max (furthest misses) miss.1 := by
  rw [furthest, List.foldl_append]
  rfl

/-- No miss is further than the furthest. -/
theorem le_furthest {misses : List (Nat × Expected)} {miss : Nat × Expected}
    (member : miss ∈ misses) : miss.1 ≤ furthest misses := by
  induction misses using List.reverseRecOn with
  | nil => cases member
  | append_singleton misses last ih =>
    rw [furthest_concat]
    obtain earlier | same := List.mem_append.mp member
    · exact (ih earlier).trans (Nat.le_max_left _ _)
    · rw [List.mem_singleton.mp same]
      exact Nat.le_max_right _ _

/-- Some miss is at the furthest place. -/
theorem exists_eq_furthest {misses : List (Nat × Expected)} (some : misses ≠ []) :
    ∃ miss ∈ misses, miss.1 = furthest misses := by
  induction misses using List.reverseRecOn with
  | nil => exact absurd rfl some
  | append_singleton misses last ih =>
    rw [furthest_concat]
    by_cases further : furthest misses ≤ last.1
    · exact ⟨last, by simp, (Nat.max_eq_right further).symm⟩
    · have kept : misses ≠ [] := by
        intro none
        rw [none] at further
        exact further (Nat.zero_le _)
      obtain ⟨miss, member, same⟩ := ih kept
      exact ⟨miss, List.mem_append_left _ member, by omega⟩

/-- Misses that are recorded one after the other come to the furthest place of all of them, with
what was missed there in their order. -/
theorem Failure.foldl_record (misses : List (Nat × Expected)) :
    misses.foldl (fun failure miss => failure.record miss.1 miss.2) start =
      ⟨furthest misses, (misses.filter fun miss => miss.1 = furthest misses).map Prod.snd⟩ := by
  induction misses using List.reverseRecOn with
  | nil => rfl
  | append_singleton misses last ih =>
    rw [List.foldl_append, ih, List.foldl_cons, List.foldl_nil, record, furthest_concat]
    dsimp only
    obtain further | same | nearer := Nat.lt_trichotomy (furthest misses) last.1
    · have before : misses.filter (fun miss => miss.1 = last.1) = [] := by
        apply List.filter_eq_nil_iff.mpr
        intro miss member
        have := le_furthest member
        simp only [decide_eq_true_eq]
        omega
      rw [if_pos further, Nat.max_eq_right further.le, List.filter_append, before]
      simp
    · rw [if_neg same.not_lt, if_pos same, ← same, Nat.max_self, List.filter_append]
      simp [same]
    · have other : ¬furthest misses = last.1 := by omega
      have behind : ¬last.1 = furthest misses := by omega
      rw [if_neg (Nat.lt_asymm nearer), if_neg other, Nat.max_eq_left nearer.le, List.filter_append]
      simp [behind]

/-- What is missed outside look-aheads is missed. -/
theorem missed_of_mem_outside {depth : Nat} {trace : List Event} {text : List Char}
    {expected : Expected} (member : (text, expected) ∈ outside depth trace) :
    .missed text expected ∈ trace := by
  induction trace generalizing depth with
  | nil => cases member
  | cons event rest ih =>
    cases event with
    | missed front item =>
      rw [outside] at member
      split at member
      · obtain same | later := List.mem_cons.mp member
        · cases same
          exact .head _
        · exact .tail _ (ih later)
      · exact .tail _ (ih member)
    | enter => exact .tail _ (ih member)
    | leave => exact .tail _ (ih member)

/-- What a rule misses outside look-aheads, the rules before it do not hide. -/
theorem mem_outside_bind {α β : Type} {rule : Rule α} [built : Built rule] {next : α → Rule β}
    {text rest : List Char} {value : α} (found : (rule text).result = some (value, rest))
    {miss : List Char × Expected} (member : miss ∈ outside 0 (next value rest).trace) :
    miss ∈ outside 0 ((rule >>= next) text).trace := by
  rw [trace_bind, found, outside_append, built.depthAfter_trace]
  exact List.mem_append_right _ member

/-- A list is read from every text, if only as empty. -/
theorem exists_result_separated {α : Type} (separator : String) (element : Rule α)
    (text : List Char) :
    ∃ values rest, (separated separator element text).result = some (values, rest) := by
  cases first : (element (strip text)).result with
  | none => exact ⟨_, _, result_separated_of_none first⟩
  | some pair =>
    obtain ⟨values, rest, more⟩ := exists_result_followers separator element pair.2
    exact ⟨pair.1 :: values, rest, by rw [result_separated_of_some first, more]; rfl⟩

/-- Where the rule for the end does not apply, the end is missed. -/
theorem endOfInput_missed {text : List Char} (missed : (endOfInput text).result = none) :
    (text, Expected.endOfInput) ∈ outside 0 (endOfInput text).trace := by
  unfold endOfInput expecting at missed ⊢
  cases text with
  | nil => cases missed
  | cons c rest => exact .head _

/-- A text that is not read to its end misses its end. -/
theorem exists_endOfInput_missed {text : List Char} (missed : (clauses text).result = none) :
    ∃ rest, (rest, Expected.endOfInput) ∈ outside 0 (clauses text).trace := by
  obtain ⟨found, middle, list⟩ := exists_result_separated ";" clause text
  obtain ⟨mark, after, option⟩ : ∃ mark after,
      (spacedOptional (literal ";") middle).result = some (mark, after) := by
    rw [spacedOptional, result_optional]
    exact ⟨_, _, rfl⟩
  have skipped := result_spaces after
  change ((separated ";" clause >>= closing) text).result = none at missed
  rw [result_bind_of_some list, closing, result_bind_of_some option,
    result_bind_of_some skipped] at missed
  have ended : (endOfInput (strip after)).result = none := by
    cases read : (endOfInput (strip after)).result with
    | none => rfl
    | some pair =>
      rw [result_bind_of_some read] at missed
      cases missed
  have last : (strip after, Expected.endOfInput) ∈
      outside 0 ((endOfInput >>= fun _ => pure found) (strip after)).trace := by
    rw [trace_bind, ended, Option.elim_none, List.append_nil]
    exact endOfInput_missed ended
  refine ⟨strip after, ?_⟩
  change _ ∈ outside 0 ((separated ";" clause >>= closing) text).trace
  exact mem_outside_bind list (mem_outside_bind option (mem_outside_bind skipped last))

/-- Misses at ends of a text come to a failure at the shortest of these ends, which lists what was
missed there. -/
theorem exists_place_of_misses {text : List Char} {misses : List (List Char × Expected)}
    (some : misses ≠ []) (ends : ∀ miss ∈ misses, miss.1 <:+ text) :
    ∃ before after, text = before ++ after ∧
      (Failure.ofMisses (Text.byteSize text) misses).offset = Text.byteSize before ∧
      (Failure.ofMisses (Text.byteSize text) misses).expected ≠ [] ∧
      (∀ expected ∈ (Failure.ofMisses (Text.byteSize text) misses).expected,
        (after, expected) ∈ misses) ∧ ∀ miss ∈ misses, after.length ≤ miss.1.length := by
  let place (miss : List Char × Expected) : Nat × Expected :=
    (Text.byteSize text - Text.byteSize miss.1, miss.2)
  have recorded : Failure.ofMisses (Text.byteSize text) misses =
      ⟨furthest (misses.map place), ((misses.map place).filter fun miss =>
        miss.1 = furthest (misses.map place)).map Prod.snd⟩ := by
    rw [← Failure.foldl_record, List.foldl_map]
    rfl
  have places : misses.map place ≠ [] := fun none => some (List.map_eq_nil_iff.mp none)
  obtain ⟨_, inside, reached⟩ := exists_eq_furthest places
  obtain ⟨⟨after, expected⟩, member, rfl⟩ := List.mem_map.mp inside
  obtain ⟨before, whole⟩ := ends _ member
  have size : Text.byteSize text = Text.byteSize before + Text.byteSize after := by
    rw [← whole, Text.byteSize_append]
  have offset : furthest (misses.map place) = Text.byteSize before := by
    rw [← reached]
    change Text.byteSize text - Text.byteSize after = _
    omega
  rw [recorded]
  refine ⟨before, after, whole.symm, offset, ?_, ?_, fun miss member => ?_⟩
  · have kept : place (after, expected) ∈ (misses.map place).filter fun miss =>
        miss.1 = furthest (misses.map place) :=
      List.mem_filter.mpr ⟨inside, decide_eq_true reached⟩
    exact List.ne_nil_of_mem (List.mem_map_of_mem kept)
  · intro other listed
    obtain ⟨_, kept, rfl⟩ := List.mem_map.mp listed
    obtain ⟨inside, same⟩ := List.mem_filter.mp kept
    obtain ⟨⟨rest, other⟩, member, rfl⟩ := List.mem_map.mp inside
    have here : Text.byteSize text - Text.byteSize rest = Text.byteSize before := by
      rw [← offset]
      exact of_decide_eq_true same
    obtain ⟨front, part⟩ : rest <:+ text := ends _ member
    have bound : Text.byteSize text = Text.byteSize front + Text.byteSize rest := by
      rw [← part, Text.byteSize_append]
    have equal : rest = after :=
      Text.eq_of_suffix_of_byteSize ⟨front, part⟩ ⟨before, whole⟩ (by omega)
    rw [← equal]
    exact member
  · have bound : Text.byteSize text - Text.byteSize miss.1 ≤ Text.byteSize before :=
      offset ▸ le_furthest (List.mem_map_of_mem (f := place) member)
    exact Text.length_le_of_byteSize_le ⟨before, whole⟩ (ends miss member) (by omega)

/-- A text is rejected when its clauses are not read to its end, with the failure of their trace. -/
theorem read_eq_error_iff {text : List Char} {failure : Failure} :
    read text = .error failure ↔ (clauses text).result = none ∧
      failure = Failure.ofTrace (Text.byteSize text) (clauses text).trace := by
  unfold read
  dsimp only
  cases (clauses text).result <;> simp [eq_comm]

/-- The failure of a rejected text is at one of its places, where something is listed as missed but
nothing of what is listed stands. -/
theorem exists_place_of_read_error {text : List Char} {failure : Failure}
    (rejected : read text = .error failure) :
    ∃ before after, text = before ++ after ∧ failure.offset = Text.byteSize before ∧
      failure.expected ≠ [] ∧ ∀ expected ∈ failure.expected, ¬expected.StandsAt after := by
  obtain ⟨missed, rfl⟩ := read_eq_error_iff.mp rejected
  have trueOf : ∀ miss ∈ outside 0 (clauses text).trace,
      miss.1 <:+ text ∧ ¬miss.2.StandsAt miss.1 := fun miss member =>
    Built.trueOf_trace inferInstance text _ (missed_of_mem_outside member)
  obtain ⟨rest, ended⟩ := exists_endOfInput_missed missed
  obtain ⟨before, after, whole, offset, listed, members, -⟩ :=
    exists_place_of_misses (List.ne_nil_of_mem ended) fun miss member => (trueOf miss member).1
  rw [Failure.ofTrace_eq]
  exact ⟨before, after, whole, offset, listed, fun expected member =>
    (trueOf _ (members expected member)).2⟩

end Grammar

end ActionString
