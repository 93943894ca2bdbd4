import ActionString.Proofs.Leads
import ActionString.Proofs.Loops

/-!
# Completing a text with what was missed

What is listed as missed at a place is viable there if the text up to the place can be completed
with it to an accepted text. Likewise a rule completes a text with what it missed there if it reads
some such text, but perhaps for spaces at its end.
-/

namespace ActionString

/-- A text begins with what was looked for: with the fixed text, or with a character of the class
that is described. Only the empty text begins with the end. -/
def Expected.Opens (text : List Char) : Expected → Prop
  | literal word => word.toList <+: text
  | charClass description => ∃ kind : CharClass, kind.description = description ∧
      ∃ c ∈ text.head?, kind.accepts c = true
  | endOfInput => text = []

namespace Grammar

open Rule Word

/-- A text is accepted with an item, or what the item describes, behind it and perhaps more. -/
def Viable (before : List Char) (item : Expected) : Prop :=
  ∃ more, item.Opens more ∧ ∃ clauses, read (before ++ more) = .ok clauses

variable {α β : Type} {before front : List Char} {item : Expected}

/-- A rule reads a text with an item, or what the item describes, behind it and perhaps more, and
leaves at most spaces. -/
def Completes (rule : Rule α) (before : List Char) (item : Expected) : Prop :=
  ∃ more value rest, item.Opens more ∧ (rule (before ++ more)).result = some (value, rest) ∧
    blank rest = true

/-- At the end nothing has to be added. -/
theorem completes_endOfInput_iff {rule : Rule α} : Completes rule before .endOfInput ↔
    ∃ value rest, (rule before).result = some (value, rest) ∧ blank rest = true := by
  constructor
  · rintro ⟨more, value, rest, rfl, found, ended⟩
    rw [List.append_nil] at found
    exact ⟨value, rest, found, ended⟩
  · rintro ⟨value, rest, found, ended⟩
    exact ⟨[], value, rest, rfl, by rwa [List.append_nil], ended⟩

/-- A repetition reads every text. -/
theorem exists_spacedMany (rule : Rule α) [Consuming rule] (text : List Char) :
    ∃ values rest, (spacedMany rule text).result = some (values, rest) := by
  obtain ⟨values, rest, loop⟩ : ∃ values rest, Loops (fun _ => spaced rule) [] text values rest :=
    Loops.exists_loops [] text
  exact ⟨values, rest, loop.result_spacedMany⟩

/-- Where a repetition ends, its rule does not apply. -/
theorem missed_of_spacedMany {rule : Rule α} [Consuming rule] {text rest : List Char}
    {values : List α} (found : (spacedMany rule text).result = some (values, rest)) :
    (rule (strip rest)).result = none := by
  obtain ⟨others, last, loop⟩ : ∃ others last, Loops (fun _ => spaced rule) [] text others last :=
    Loops.exists_loops [] text
  have missed := loop.missed
  rw [loop.result_spacedMany] at found
  cases found
  rwa [spaced_eq] at missed

/-- At the end a repetition reads nothing. -/
theorem result_spacedMany_nil (rule : Rule α) [Consuming rule] :
    (spacedMany rule []).result = some ([], []) := by
  refine congrArg _ (spacedMany_of_none ?_)
  cases found : (rule (strip [])).result with
  | none => rfl
  | some pair => exact absurd (Consuming.shorter found) (Nat.not_lt_zero _)

/-- A repetition that goes on reads on behind what its rule has read. -/
theorem result_spacedMany_of_some {rule : Rule α} [Consuming rule] {text rest last : List Char}
    {value : α} {values : List α} (found : (rule (strip text)).result = some (value, rest))
    (more : (spacedMany rule rest).result = some (values, last)) :
    (spacedMany rule text).result = some (value :: values, last) := by
  have shorter := (Consuming.shorter found).trans_le (strip_suffix text).length_le
  rw [spacedMany_of_some found shorter, more]
  rfl

/-- A repetition that goes on misses what its rule misses and what it misses behind that. -/
theorem mem_outside_spacedMany_of_some {rule : Rule α} [Built rule] [Consuming rule]
    {text rest : List Char} {value : α} (found : (rule (strip text)).result = some (value, rest))
    {miss : List Char × Expected} : miss ∈ outside 0 (spacedMany rule text).trace ↔
      miss ∈ outside 0 (rule (strip text)).trace ∨ miss ∈ outside 0 (spacedMany rule rest).trace := by
  have shorter := (Consuming.shorter found).trans_le (strip_suffix text).length_le
  rw [spacedMany_of_some found shorter, outside_append, Built.depthAfter_trace inferInstance,
    List.mem_append]

/-- A repetition looks for an item at a place: it misses the item there, or it leaves the text from
there on, and the item is the end. -/
def Awaits (rule : Rule α) (before after : List Char) (item : Expected) : Prop :=
  Misses (spacedMany rule) before after item ∨
    item = .endOfInput ∧ ∃ values rest,
      (spacedMany rule (before ++ after)).result = some (values, rest) ∧ after = strip rest

/-- What a repetition looks for is looked for by its rule, or it is the end, behind what the rule
has read before. -/
theorem awaits_induction {rule : Rule α} [Built rule] [Consuming rule]
    {motive : List Char → List Char → Expected → Prop} (ended : ∀ after, motive [] after .endOfInput)
    (own : ∀ before after item, Misses rule before after item → motive before after item)
    (gap : ∀ gap before after item, blank gap = true → motive before after item →
      motive (gap ++ before) after item)
    (next : ∀ front value before after item,
      (rule (front ++ (before ++ after))).result = some (value, before ++ after) →
        Awaits rule before after item → motive before after item → motive (front ++ before) after item)
    {before after : List Char} (awaits : Awaits rule before after item) :
    motive before after item := by
  induction length : (before ++ after).length using Nat.strong_induction_on generalizing before after
  with
  | _ size ih =>
    subst length
    obtain ⟨spaces, cut, blanks, -⟩ := exists_dropWhile_eq isSpace (before ++ after)
    change before ++ after = spaces ++ strip (before ++ after) at cut
    have spacesBlank : blank spaces = true := List.all_eq_true.mpr blanks
    -- What the rule reads behind the spaces comes before what is looked for later.
    have later {value : α} {rest : List Char}
        (found : (rule (strip (before ++ after))).result = some (value, rest))
        (inner : after <:+ rest)
        (awaits : ∀ middle, rest = middle ++ after → Awaits rule middle after item) :
        motive before after item := by
      obtain ⟨front, whole⟩ := Forward.suffix found
      obtain ⟨middle, rfl⟩ := inner
      have shorter := (Consuming.shorter found).trans_le (strip_suffix _).length_le
      have before_eq : before = spaces ++ (front ++ middle) := by
        refine (List.append_left_inj after).mp ?_
        rw [cut, ← whole]
        simp only [List.append_assoc]
      rw [← whole] at found
      rw [before_eq]
      exact gap _ _ _ _ spacesBlank (next front value middle after item found (awaits middle rfl)
        (ih _ shorter (awaits middle rfl) rfl))
    obtain misses | ⟨rfl, values, rest, read, same⟩ := awaits
    · obtain ⟨front, middle, rfl, stripped, here⟩ | ⟨value, front, middle, -, found, more⟩ :=
        misses.spacedMany
      · rw [stripped, List.append_assoc] at cut
        rw [List.append_cancel_right cut]
        exact gap _ _ _ _ spacesBlank (own middle after item here)
      · exact later found ⟨middle, rfl⟩ fun other whole => .inl (by
          rwa [← List.append_cancel_right whole])
    · cases found : (rule (strip (before ++ after))).result with
      | none =>
        rw [spacedMany_of_none found] at read
        cases read
        rw [← same] at cut
        rw [List.append_cancel_right cut, ← List.append_nil spaces]
        exact gap _ _ _ _ spacesBlank (ended _)
      | some pair =>
        obtain ⟨value, left⟩ := pair
        have shorter := (Consuming.shorter found).trans_le (strip_suffix _).length_le
        rw [spacedMany_of_some found shorter, Option.map_eq_some_iff] at read
        obtain ⟨⟨others, last⟩, more, eq⟩ := read
        cases eq
        have inner : after <:+ left := by
          rw [same]
          exact (strip_suffix _).trans (Forward.suffix more)
        exact later found inner fun middle whole => .inr ⟨rfl, others, _, whole ▸ more, same⟩

/-- Behind spaces, a repetition reads what it reads without them. Where it reads nothing, it leaves
the spaces. -/
theorem exists_spacedMany_gap {rule : Rule α} [Consuming rule] {spaces text rest : List Char}
    {values : List α} (blanks : blank spaces = true)
    (found : (spacedMany rule text).result = some (values, rest)) : ∃ last,
      (spacedMany rule (spaces ++ text)).result = some (values, last) ∧
        (last = rest ∨ values = [] ∧ last = spaces ++ rest) := by
  have stripped : strip (spaces ++ text) = strip text := strip_append_of_blank blanks text
  cases first : (rule (strip text)).result with
  | none =>
    rw [spacedMany_of_none first] at found
    cases found
    exact ⟨_, by rw [spacedMany_of_none (by rw [stripped, first])], .inr ⟨rfl, rfl⟩⟩
  | some pair =>
    have shorter := (Consuming.shorter first).trans_le (strip_suffix _).length_le
    rw [spacedMany_of_some first shorter, Option.map_eq_some_iff] at found
    obtain ⟨⟨others, last⟩, more, same⟩ := found
    cases same
    exact ⟨_, result_spacedMany_of_some (by rw [stripped, first]) more, .inl rfl⟩

/-- Spaces in front of a text do not keep a repetition from completing it. -/
theorem Completes.gap {rule : Rule α} [Consuming rule] {spaces : List Char}
    (blanks : blank spaces = true) (completes : Completes (spacedMany rule) before item) :
    Completes (spacedMany rule) (spaces ++ before) item := by
  obtain ⟨more, values, rest, opens, found, ended⟩ := completes
  obtain ⟨last, read, place⟩ := exists_spacedMany_gap blanks found
  refine ⟨more, values, last, opens, by rw [List.append_assoc, read], ?_⟩
  obtain rfl | ⟨-, rfl⟩ := place
  · exact ended
  · rw [blank, List.all_append, Bool.and_eq_true]
    exact ⟨blanks, ended⟩

/-- Where a rule is stuck in a text, it completes the text up to the furthest place with whatever it
looks for there, be it the end where it has stopped. -/
def Resumes (rule : Rule α) : Prop :=
  ∀ ⦃before after value rest item⦄, (rule (before ++ after)).result = some (value, rest) →
    strip rest ≠ [] → after.length ≤ (strip rest).length →
      (Misses rule before after item ∨ item = .endOfInput ∧ after = strip rest) →
        Completes rule before item

/-- What is looked for furthest by a rule that begins with a word is looked for behind the word. -/
theorem exists_behind_keyword {word : String} {next : List Char → Rule β}
    [∀ value, Built (next value)] {after rest : List Char} {value : β} (nonempty : word.toList ≠ [])
    (found : ((keyword word >>= next) (before ++ after)).result = some (value, rest))
    (within : after.length ≤ (strip rest).length)
    (looked : Misses (keyword word >>= next) before after item ∨
      item = .endOfInput ∧ after = strip rest) :
    ∃ spelt middle, before = spelt ++ middle ∧
      spelt.map Char.toLower = word.toList.map Char.toLower ∧
      (next spelt (middle ++ after)).result = some (value, rest) ∧
      (Misses (next spelt) middle after item ∨ item = .endOfInput ∧ after = strip rest) := by
  rw [result_bind, Option.bind_eq_some_iff] at found
  obtain ⟨⟨spelt, body⟩, begun, read⟩ := found
  have spelling := stripFolded_of_result_keyword begun
  have whole := Text.eq_append_of_stripFolded spelling
  have same := Text.map_toLower_of_stripFolded spelling
  have positive : 0 < spelt.length := by
    have lengths := congrArg List.length same
    rw [List.length_map, List.length_map] at lengths
    have := List.length_pos_iff.mpr nonempty
    omega
  have left := (strip_suffix rest).length_le.trans (Forward.length_le read)
  obtain ⟨middle, rfl⟩ : after <:+ body :=
    List.suffix_of_suffix_length_le ⟨before, rfl⟩ ⟨spelt, whole.symm⟩ (within.trans left)
  rw [← List.append_assoc] at whole
  obtain rfl := List.append_cancel_right whole
  refine ⟨spelt, middle, rfl, same, read, looked.imp_left fun misses => ?_⟩
  obtain first | ⟨_, front, inner, cut, read, later⟩ := misses.bind
  · have none := (congrArg List.length first.keyword.1)
    rw [List.length_append, List.length_nil] at none
    omega
  · rw [begun, Option.some.injEq, Prod.mk.injEq] at read
    obtain ⟨rfl, tails⟩ := read
    rwa [List.append_cancel_right tails]

namespace Resumes

/-- A change of the value leaves a rule completing texts. -/
theorem map {rule : Rule α} [Built rule] {change : α → β} (resumes : Resumes rule) :
    Resumes (rule >>= fun value => pure (change value)) := by
  intro before after value rest item found stuck within looked
  rw [result_bind, Option.bind_eq_some_iff] at found
  obtain ⟨⟨inner, left⟩, read, same⟩ := found
  cases same
  obtain ⟨more, value, last, opens, completed, ended⟩ :=
    resumes read stuck within (looked.imp_left Misses.map)
  exact ⟨more, change value, last, opens, by rw [result_bind_of_some completed]; rfl, ended⟩

/-- A repetition is stuck where it looks for an item that completes the text before it. -/
theorem spacedMany {rule : Rule α}
    (each : ∀ before after item, Awaits rule before after item →
      Completes (Rule.spacedMany rule) before item) : Resumes (Rule.spacedMany rule) := by
  intro before after values rest item found stuck within looked
  exact each before after item (looked.imp_right fun ⟨last, place⟩ => ⟨last, _, _, found, place⟩)

/-- Behind a word, a rule completes texts as the next one does. -/
theorem keyword {word : String} {next : List Char → Rule β} [∀ value, Built (next value)]
    (some : word.toList ≠ []) (resumes : ∀ value, Resumes (next value)) :
    Resumes (Rule.keyword word >>= next) := by
  intro before after value rest item found stuck within looked
  obtain ⟨spelt, middle, rfl, same, read, behind⟩ :=
    exists_behind_keyword some found within looked
  obtain ⟨more, last, tail, opens, completed, ended⟩ := resumes spelt read stuck within behind
  refine ⟨more, last, tail, opens, ?_, ended⟩
  rw [List.append_assoc, result_bind_of_some (result_keyword_of_same same _)]
  exact completed

end Resumes

end Grammar

end ActionString
