import ActionString.Proofs.Clauses

/-!
# What traces say

The trace of a rule tells the truth: whatever it lists as missed was looked for at an end of the
text and is not there, and every look-ahead that begins in it also ends in it. Both are properties
of traces that hold of single misses and pass through the combinators, so they hold of the trace of
each rule that is made of combinators.
-/

namespace ActionString

/-- What a rule looks for stands at the front of a text. -/
def Expected.StandsAt (text : List Char) : Expected → Prop
  | literal word => word.toList <+: text
  | charClass description => ∀ kind : CharClass, kind.description = description →
      ∃ c ∈ text.head?, kind.accepts c = true
  | endOfInput => text = []

namespace Grammar

open Rule

/-- A property of the traces that texts leave, when it holds of single misses and passes through
the combinators. -/
structure Composes (holds : List Char → List Event → Prop) : Prop where
  missed : ∀ {text expected}, ¬expected.StandsAt text → holds text [.missed text expected]
  nil : ∀ text, holds text []
  append : ∀ {text first second}, holds text first → holds text second →
    holds text (first ++ second)
  of_suffix : ∀ {part text trace}, part <:+ text → holds part trace → holds text trace
  ahead : ∀ {text trace}, holds text trace → holds text (.enter :: trace ++ [.leave])

namespace Composes

variable {α β : Type} {holds : List Char → List Event → Prop}

/-- A rule by a plain function misses what it looks for only where that does not stand. -/
theorem expecting (composes : Composes holds) {expected : Expected}
    {read : List Char → Option (α × List Char)}
    (absent : ∀ text, read text = none → ¬expected.StandsAt text) (text : List Char) :
    holds text (Rule.expecting expected read text).trace := by
  unfold Rule.expecting
  cases found : read text with
  | some pair => exact composes.nil text
  | none => exact composes.missed (absent text found)

/-- Where the front of a text is refused by a class, no character of the class stands. -/
theorem absent_of_refused {kind : CharClass} {text : List Char}
    (refused : ∀ c ∈ text.head?, ¬kind.accepts c = true) :
    ¬(Expected.charClass kind.description).StandsAt text := by
  intro stands
  obtain ⟨c, front, accepted⟩ := stands kind rfl
  exact refused c front accepted

theorem literal (composes : Composes holds) (word : String) (text : List Char) :
    holds text (Rule.literal word text).trace := by
  apply composes.expecting
  intro text missed stands
  obtain ⟨rest, rfl⟩ := stands
  have found := List.isPrefixOf?_eq_some_iff_append_eq.mpr (rfl : word.toList ++ rest = _)
  rw [found] at missed
  cases missed

theorem keyword (composes : Composes holds) (word : String) (text : List Char) :
    holds text (Rule.keyword word text).trace := by
  apply composes.expecting
  intro text missed stands
  obtain ⟨rest, rfl⟩ := stands
  rw [Text.stripFolded_of_map_toLower rfl] at missed
  cases missed

theorem chars (composes : Composes holds) (kind : CharClass) (text : List Char) :
    holds text (Rule.chars kind text).trace := by
  apply composes.expecting
  intro text missed
  apply absent_of_refused
  intro c front accepted
  obtain ⟨rest, rfl⟩ := List.head?_eq_some_iff.mp front
  simp [accepted] at missed

theorem oneOf (composes : Composes holds) (kind : CharClass) (text : List Char) :
    holds text (Rule.oneOf kind text).trace := by
  apply composes.expecting
  intro text missed
  apply absent_of_refused
  intro c front accepted
  obtain ⟨rest, rfl⟩ := List.head?_eq_some_iff.mp front
  simp [accepted] at missed

theorem endOfInput (composes : Composes holds) (text : List Char) :
    holds text (Rule.endOfInput text).trace := by
  apply composes.expecting
  intro text missed ended
  rw [Expected.StandsAt] at ended
  rw [ended] at missed
  cases missed

theorem bind (composes : Composes holds) {rule : Rule α} [Forward rule] {next : α → Rule β}
    (first : ∀ text, holds text (rule text).trace)
    (second : ∀ value text, holds text (next value text).trace) (text : List Char) :
    holds text ((rule >>= next) text).trace := by
  rw [trace_bind]
  apply composes.append (first text)
  cases found : (rule text).result with
  | none => exact composes.nil text
  | some pair => exact composes.of_suffix (Forward.suffix found) (second pair.1 pair.2)

theorem orElse (composes : Composes holds) {rule other : Rule α}
    (first : ∀ text, holds text (rule text).trace)
    (second : ∀ text, holds text (other text).trace) (text : List Char) :
    holds text (Rule.orElse rule other text).trace := by
  rw [trace_orElse]
  apply composes.append (first text)
  cases (rule text).result with
  | none => exact second text
  | some pair => exact composes.nil text

theorem spaced (composes : Composes holds) {rule : Rule α}
    (each : ∀ text, holds text (rule text).trace) (text : List Char) :
    holds text (rule (strip text)).trace :=
  composes.of_suffix (strip_suffix text) (each (strip text))

theorem spacedMany (composes : Composes holds) {rule : Rule α} [Forward rule]
    (each : ∀ text, holds text (rule text).trace) (text : List Char) :
    holds text (Rule.spacedMany rule text).trace := by
  induction text using repeat_induction fun text => rule (strip text) with
  | stop text missed =>
    rw [spacedMany_of_none missed]
    exact composes.spaced each text
  | idle text value rest found same =>
    rw [spacedMany_of_idle found same]
    exact composes.spaced each text
  | step text value rest found shorter later =>
    rw [spacedMany_of_some found shorter]
    apply composes.append (composes.spaced each text)
    exact composes.of_suffix ((Forward.suffix found).trans (strip_suffix text)) later

theorem follower (composes : Composes holds) (separator : String) {element : Rule α}
    [Forward element] (each : ∀ text, holds text (element text).trace) (text : List Char) :
    holds text (Rule.follower separator element text).trace := by
  have literals : ∀ text, holds text (Rule.literal separator text).trace :=
    composes.literal separator
  have spaces : ∀ text, holds text (Rule.spaces text).trace := composes.nil
  have separators : ∀ text, holds text (Rule.separators separator text).trace :=
    composes.bind spaces fun _ => composes.bind literals fun _ =>
      composes.bind (composes.spacedMany literals) fun _ => composes.nil
  have spacedElement (text : List Char) : holds text (Rule.spaced element text).trace := by
    rw [spaced_eq]
    exact composes.spaced each text
  exact composes.bind separators (fun _ => spacedElement) text

theorem followers (composes : Composes holds) (separator : String) {element : Rule α}
    [Forward element] (each : ∀ text, holds text (element text).trace) (text : List Char) :
    holds text (Rule.followers separator element text).trace := by
  have first := composes.follower separator each
  induction text using repeat_induction (Rule.follower separator element) with
  | stop text missed =>
    rw [followers_of_none missed]
    exact first text
  | idle text value rest found same =>
    rw [followers_of_idle found same]
    exact first text
  | step text value rest found shorter later =>
    rw [followers_of_some found shorter]
    exact composes.append (first text) (composes.of_suffix (Forward.suffix found) later)

/-- A property of traces that passes through the combinators holds of the traces of a rule that is
made of them. -/
theorem trace (composes : Composes holds) {rule : Rule α} (built : Built rule) (text : List Char) :
    holds text (rule text).trace := by
  induction built generalizing text with
  | pure value => exact composes.nil text
  | fail => exact composes.nil text
  | run accepts => exact composes.nil text
  | literal word => exact composes.literal word text
  | keyword word => exact composes.keyword word text
  | chars kind => exact composes.chars kind text
  | oneOf kind => exact composes.oneOf kind text
  | endOfInput => exact composes.endOfInput text
  | bind first second ihFirst ihSecond =>
    have := Forward.of_built first
    exact composes.bind ihFirst ihSecond text
  | orElse first second ihFirst ihSecond => exact composes.orElse ihFirst ihSecond text
  | notAhead ahead ih => exact composes.ahead (ih text)
  | spacedMany each ih =>
    have := Forward.of_built each
    exact composes.spacedMany ih text
  | followers separator each ih =>
    have := Forward.of_built each
    exact composes.followers separator ih text

end Composes

/-- A step of a trace is true of a text: what it lists as missed was looked for at an end of the
text and is not there. -/
def Event.TrueOf (text : List Char) : Event → Prop
  | missed rest expected => rest <:+ text ∧ ¬expected.StandsAt rest
  | enter | leave => True

/-- What is true of an end of a text is true of the text. -/
theorem Event.TrueOf.of_suffix {part text : List Char} {event : Event}
    (holds : event.TrueOf part) (within : part <:+ text) : event.TrueOf text := by
  cases event with
  | missed rest expected => exact ⟨holds.1.trans within, holds.2⟩
  | enter => exact trivial
  | leave => exact trivial

/-- True steps make up true traces. -/
theorem composes_trueOf : Composes fun text trace => ∀ event ∈ trace, event.TrueOf text where
  missed absent := List.forall_mem_singleton.mpr ⟨List.suffix_refl _, absent⟩
  nil _ := List.forall_mem_nil _
  append first second := List.forall_mem_append.mpr ⟨first, second⟩
  of_suffix within holds event member := (holds event member).of_suffix within
  ahead holds := List.forall_mem_append.mpr
    ⟨List.forall_mem_cons.mpr ⟨trivial, holds⟩, List.forall_mem_singleton.mpr trivial⟩

/-- A trace in which every look-ahead ends, with what it misses outside of its look-aheads. -/
inductive Nested : List Event → List (List Char × Expected) → Prop where
  | nil : Nested [] []
  | missed {text expected trace misses} (rest : Nested trace misses) :
      Nested (.missed text expected :: trace) ((text, expected) :: misses)
  | ahead {inside hidden trace misses} (inner : Nested inside hidden) (rest : Nested trace misses) :
      Nested (.enter :: inside ++ .leave :: trace) misses

namespace Nested

/-- Of two nested traces, each misses what it misses by itself. -/
theorem append {first second : List Event} {misses others : List (List Char × Expected)}
    (front : Nested first misses) (back : Nested second others) :
    Nested (first ++ second) (misses ++ others) := by
  induction front with
  | nil => exact back
  | missed rest ih => exact .missed ih
  | ahead inner rest ihInner ih =>
    rw [List.append_assoc, List.cons_append]
    exact .ahead inner ih

/-- As many look-aheads are under way after a nested trace as before it. -/
theorem depthAfter_eq {trace : List Event} {misses : List (List Char × Expected)}
    (nested : Nested trace misses) (depth : Nat) : depthAfter depth trace = depth := by
  induction nested generalizing depth with
  | nil => rfl
  | missed rest ih => exact ih depth
  | ahead inner rest ihInner ih =>
    rw [depthAfter_append]
    change depthAfter (depthAfter (depth + 1) _ - 1) _ = depth
    rw [ihInner, Nat.add_sub_cancel, ih]

/-- What a nested trace misses counts where no look-ahead is under way, and there only. -/
theorem outside_eq {trace : List Event} {misses : List (List Char × Expected)}
    (nested : Nested trace misses) (depth : Nat) :
    outside depth trace = if depth = 0 then misses else [] := by
  induction nested generalizing depth with
  | nil => exact (ite_self []).symm
  | missed rest ih =>
    rw [outside, ih]
    split <;> rfl
  | ahead inner rest ihInner ih =>
    rw [outside_append, outside, ihInner, if_neg (Nat.succ_ne_zero depth), List.nil_append]
    change outside (depthAfter (depth + 1) _ - 1) _ = _
    rw [inner.depthAfter_eq, Nat.add_sub_cancel, ih]

end Nested

/-- Nested traces make up nested traces. -/
theorem composes_nested : Composes fun _ trace => ∃ misses, Nested trace misses where
  missed _ := ⟨_, .missed .nil⟩
  nil _ := ⟨_, .nil⟩
  append := by
    rintro text first second ⟨misses, front⟩ ⟨others, back⟩
    exact ⟨misses ++ others, front.append back⟩
  of_suffix _ nested := nested
  ahead := by
    rintro text trace ⟨hidden, inner⟩
    exact ⟨[], .ahead inner .nil⟩

/-- The trace of a rule is true of the text that the rule reads. -/
theorem Built.trueOf_trace {α : Type} {rule : Rule α} (built : Built rule) (text : List Char) :
    ∀ event ∈ (rule text).trace, event.TrueOf text :=
  composes_trueOf.trace built text

/-- Every look-ahead that begins in the trace of a rule ends in it. -/
theorem Built.exists_nested {α : Type} {rule : Rule α} (built : Built rule) (text : List Char) :
    ∃ misses, Nested (rule text).trace misses :=
  composes_nested.trace built text

/-- As many look-aheads are under way after a rule as before it. -/
theorem Built.depthAfter_trace {α : Type} {rule : Rule α} (built : Built rule) (text : List Char)
    (depth : Nat) : depthAfter depth (rule text).trace = depth := by
  obtain ⟨misses, nested⟩ := built.exists_nested text
  exact nested.depthAfter_eq depth

end Grammar

end ActionString
