import ActionString.Proofs.Forward

/-!
# Rules and separators

Most rules do not tell a separator from the end of the text: what they read, and the trace that
they leave, is the same whether the text ends or a separator comes and other text after it. Quotes
are the exception, since a separator between quotes separates nothing. So the property is stated
for texts of `quiet` characters, and the rules that read quotes ask that a quote is not quiet.
-/

namespace ActionString.Grammar

open Rule Word

/-- A condition on the members of a list is decided by going through the list, also where it could
be decided by going through all values of a finite type. -/
scoped instance (priority := 2000) decidableBAll {ι : Type} (p : ι → Prop) [DecidablePred p]
    (members : List ι) : Decidable (∀ i ∈ members, p i) :=
  List.decidableBAll p members

/-- A step of a trace when the text goes on with `tail`. -/
def Event.extend (tail : List Char) : Event → Event
  | missed text expected => missed (text ++ tail) expected
  | enter => enter
  | leave => leave

/-- An outcome when the text goes on with `tail`, which is not read. -/
def Outcome.extend {α : Type} (tail : List Char) (outcome : Outcome α) : Outcome α where
  result := outcome.result.map fun found => (found.1, found.2 ++ tail)
  trace := outcome.trace.map (Event.extend tail)

/-- Characters that end words. Spaces are not among them. -/
structure Stops where
  chars : List Char
  solid : ∀ c ∈ chars, isSpace c = false

namespace Stops

/-- The two separators. -/
def both : Stops := ⟨[',', ';'], by decide⟩

/-- The separator of clauses. -/
def semicolon : Stops := ⟨[';'], by decide⟩

/-- A text is over, or goes on with a stop. -/
def At (stops : Stops) (tail : List Char) : Prop := ∀ c ∈ tail.head?, c ∈ stops.chars

/-- No character of a word is a stop, in either case. -/
abbrev Spare (stops : Stops) (word : String) : Prop :=
  ∀ w ∈ word.toList, ∀ c ∈ stops.chars, c.toLower ≠ w.toLower

/-- No stop satisfies a condition on characters. -/
abbrev Refused (stops : Stops) (accepts : Char → Bool) : Prop :=
  ∀ c ∈ stops.chars, accepts c = false

variable {stops : Stops}

/-- The end of a text is a stop. -/
theorem at_nil : stops.At [] := fun _ member => by cases member

/-- A text that begins with a stop. -/
theorem at_cons {c : Char} (member : c ∈ stops.chars) (rest : List Char) : stops.At (c :: rest) := by
  intro d same
  cases same
  exact member

/-- A stop is not read by a condition that refuses stops. -/
theorem takeWhile_of_at {accepts : Char → Bool} {tail : List Char}
    (refused : stops.Refused accepts) (ends : stops.At tail) : tail.takeWhile accepts = [] := by
  cases tail with
  | nil => rfl
  | cons c rest =>
    have stop := refused c (ends c rfl)
    rw [List.takeWhile_cons_of_neg (by simp [stop])]

/-- Words of a class end at a stop as they do at the end of the text. -/
theorem takeWhile_append {accepts : Char → Bool} {front tail : List Char}
    (refused : stops.Refused accepts) (ends : stops.At tail) :
    (front ++ tail).takeWhile accepts = front.takeWhile accepts := by
  induction front with
  | nil => exact takeWhile_of_at refused ends
  | cons c front ih =>
    by_cases accepted : accepts c = true
    · rw [List.cons_append, List.takeWhile_cons_of_pos accepted,
        List.takeWhile_cons_of_pos accepted, ih]
    · rw [List.cons_append, List.takeWhile_cons_of_neg accepted,
        List.takeWhile_cons_of_neg accepted]

/-- What comes after a word of a class goes on with the tail. -/
theorem dropWhile_append {accepts : Char → Bool} {front tail : List Char}
    (refused : stops.Refused accepts) (ends : stops.At tail) :
    (front ++ tail).dropWhile accepts = front.dropWhile accepts ++ tail := by
  induction front with
  | nil =>
    have none := takeWhile_of_at refused ends
    have all := List.takeWhile_append_dropWhile (p := accepts) (l := tail)
    rw [none, List.nil_append] at all
    exact all
  | cons c front ih =>
    by_cases accepted : accepts c = true
    · rw [List.cons_append, List.dropWhile_cons_of_pos accepted,
        List.dropWhile_cons_of_pos accepted, ih]
    · rw [List.cons_append, List.dropWhile_cons_of_neg accepted,
        List.dropWhile_cons_of_neg accepted, List.cons_append]

/-- Spaces before a stop are stripped as they are at the end of the text. -/
theorem strip_append {front tail : List Char} (ends : stops.At tail) :
    strip (front ++ tail) = strip front ++ tail :=
  dropWhile_append stops.solid ends

/-- A word without stops is found before a stop as it is at the end of the text. -/
theorem isPrefixOf?_append {word front tail : List Char}
    (spare : ∀ w ∈ word, ∀ c ∈ stops.chars, c.toLower ≠ w.toLower) (ends : stops.At tail) :
    word.isPrefixOf? (front ++ tail) = (word.isPrefixOf? front).map (· ++ tail) := by
  induction word generalizing front with
  | nil => rfl
  | cons w word ih =>
    rw [List.forall_mem_cons] at spare
    cases front with
    | nil =>
      cases tail with
      | nil => rfl
      | cons c rest =>
        have differs : w ≠ c := fun same => spare.1 c (ends c rfl) (by rw [same])
        simp [List.isPrefixOf?, differs]
    | cons c front =>
      by_cases same : w = c
      · simp only [List.cons_append, List.isPrefixOf?, same, beq_self_eq_true, if_true,
          ih spare.2]
      · simp [List.isPrefixOf?, same]

/-- A word without stops is spelt before a stop as it is at the end of the text. -/
theorem stripFolded_append {word front tail : List Char}
    (spare : ∀ w ∈ word, ∀ c ∈ stops.chars, c.toLower ≠ w.toLower) (ends : stops.At tail) :
    Text.stripFolded word (front ++ tail) =
      (Text.stripFolded word front).map fun found => (found.1, found.2 ++ tail) := by
  induction word generalizing front with
  | nil => rfl
  | cons w word ih =>
    rw [List.forall_mem_cons] at spare
    cases front with
    | nil =>
      cases tail with
      | nil => rfl
      | cons c rest => simp [Text.stripFolded, spare.1 c (ends c rfl)]
    | cons c front =>
      by_cases same : c.toLower = w.toLower
      · simp only [List.cons_append, Text.stripFolded, same, if_true, ih spare.2, Option.map_map]
        rfl
      · simp [Text.stripFolded, same]

end Stops

/-- A rule that, in a text of quiet characters, does not tell a stop from the end of the text. -/
def Blind {α : Type} (quiet : Char → Prop) (stops : Stops) (rule : Rule α) : Prop :=
  ∀ ⦃front tail : List Char⦄, (∀ c ∈ front, quiet c) → stops.At tail →
    rule (front ++ tail) = (rule front).extend tail

namespace Blind

variable {α β : Type} {quiet : Char → Prop} {stops : Stops}

/-- A rule that is blind to some stops is blind to fewer. -/
theorem mono {fewer : Stops} {rule : Rule α} (blind : Blind quiet stops rule)
    (subset : ∀ c ∈ fewer.chars, c ∈ stops.chars) : Blind quiet fewer rule :=
  fun _ _ calm ends => blind calm fun c member => subset c (ends c member)

theorem pure (value : α) : Blind quiet stops (Pure.pure value : Rule α) :=
  fun _ _ _ _ => rfl

theorem bind {rule : Rule α} {next : α → Rule β} [Forward rule] (first : Blind quiet stops rule)
    (second : ∀ value, Blind quiet stops (next value)) : Blind quiet stops (rule >>= next) := by
  intro front tail calm ends
  have outcome := first calm ends
  cases found : (rule front).result with
  | none =>
    apply outcome_ext
    · simp [result_bind, outcome, Outcome.extend, found]
    · simp [trace_bind, outcome, Outcome.extend, found]
  | some pair =>
    obtain ⟨value, rest⟩ := pair
    have calmRest : ∀ c ∈ rest, quiet c := fun c member =>
      calm c ((Forward.suffix found).subset member)
    have after := second value calmRest ends
    apply outcome_ext
    · simp [result_bind, outcome, Outcome.extend, found, after]
    · simp [trace_bind, outcome, Outcome.extend, found, after]

theorem map (change : α → β) {rule : Rule α} [Forward rule] (blind : Blind quiet stops rule) :
    Blind quiet stops (change <$> rule) :=
  bind blind fun value => pure (change value)

theorem orElse {rule other : Rule α} (first : Blind quiet stops rule)
    (second : Blind quiet stops other) : Blind quiet stops (orElse rule other) := by
  intro front tail calm ends
  have outcome := first calm ends
  have otherwise := second calm ends
  cases found : (rule front).result with
  | none =>
    apply outcome_ext
    · simp [result_orElse, outcome, otherwise, Outcome.extend, found]
    · simp [trace_orElse, outcome, otherwise, Outcome.extend, found]
  | some pair =>
    apply outcome_ext
    · simp [result_orElse, outcome, Outcome.extend, found]
    · simp [trace_orElse, outcome, Outcome.extend, found]

theorem nil : Blind quiet stops (firstOf ([] : List (Rule α))) := fun _ _ _ _ => rfl

theorem cons {rule : Rule α} {others : List (Rule α)} (first : Blind quiet stops rule)
    (second : Blind quiet stops (firstOf others)) :
    Blind quiet stops (firstOf (rule :: others)) :=
  orElse first second

/-- A rule by a plain function is blind when the function is. -/
theorem expecting (expected : Expected) {read : List Char → Option (α × List Char)}
    (blind : ∀ {front tail}, stops.At tail →
      read (front ++ tail) = (read front).map fun found => (found.1, found.2 ++ tail)) :
    Blind quiet stops (expecting expected read) := by
  intro front tail _ ends
  unfold Rule.expecting
  rw [blind ends]
  cases read front <;> rfl

theorem literal {word : String} (spare : stops.Spare word) :
    Blind quiet stops (literal word) := by
  refine expecting _ fun ends => ?_
  rw [Stops.isPrefixOf?_append spare ends, Option.map_map, Option.map_map]
  rfl

theorem keyword {word : String} (spare : stops.Spare word) :
    Blind quiet stops (keyword word) :=
  expecting _ fun ends => Stops.stripFolded_append spare ends

theorem chars {kind : CharClass} (refused : stops.Refused kind.accepts) :
    Blind quiet stops (chars kind) := by
  refine expecting _ fun {front tail} ends => ?_
  rw [Stops.takeWhile_append refused ends, Stops.dropWhile_append refused ends]
  split <;> rfl

theorem oneOf {kind : CharClass} (refused : stops.Refused kind.accepts) :
    Blind quiet stops (oneOf kind) := by
  refine expecting _ fun {front tail} ends => ?_
  cases front with
  | nil =>
    cases tail with
    | nil => rfl
    | cons c rest => simp [refused c (ends c rfl)]
  | cons c front => by_cases accepted : kind.accepts c = true <;> simp [accepted]

theorem run {accepts : Char → Bool} (refused : stops.Refused accepts) :
    Blind quiet stops (Rule.run accepts) := by
  intro front tail _ ends
  unfold Rule.run
  rw [Stops.takeWhile_append refused ends, Stops.dropWhile_append refused ends]
  rfl

theorem notAhead {rule : Rule α} (blind : Blind quiet stops rule) :
    Blind quiet stops (notAhead rule) := by
  intro front tail calm ends
  unfold Rule.notAhead
  rw [blind calm ends]
  cases found : (rule front).result <;> simp [Outcome.extend, found, Event.extend]

theorem optional {rule : Rule α} [Forward rule] (blind : Blind quiet stops rule) :
    Blind quiet stops (optional rule) :=
  orElse (map some blind) (pure none)

theorem spaces : Blind quiet stops spaces :=
  bind (run stops.solid) fun _ => pure ()

theorem spaced {rule : Rule α} (blind : Blind quiet stops rule) :
    Blind quiet stops (spaced rule) :=
  bind spaces fun _ => blind

theorem spacedOptional {rule : Rule α} [Forward rule] (blind : Blind quiet stops rule) :
    Blind quiet stops (spacedOptional rule) :=
  optional (spaced blind)

theorem spacedMany {rule : Rule α} [Forward rule] (blind : Blind quiet stops rule) :
    Blind quiet stops (spacedMany rule) := by
  have read {front tail : List Char} (calm : ∀ c ∈ front, quiet c) (ends : stops.At tail) :
      rule (strip (front ++ tail)) = (rule (strip front)).extend tail := by
    rw [Stops.strip_append ends]
    exact blind (fun c member => calm c ((strip_suffix front).subset member)) ends
  intro front
  induction front using repeat_induction fun text => rule (strip text) with
  | stop front missed =>
    intro tail calm ends
    have outcome := read calm ends
    rw [spacedMany_of_none missed,
      spacedMany_of_none (by rw [outcome, Outcome.extend, missed]; rfl), outcome]
    rfl
  | idle front value rest found same =>
    intro tail calm ends
    have outcome := read calm ends
    have foundLonger : (rule (strip (front ++ tail))).result = some (value, rest ++ tail) := by
      rw [outcome, Outcome.extend, found]
      rfl
    rw [spacedMany_of_idle found same, spacedMany_of_idle foundLonger (by simpa using same), outcome]
    rfl
  | step front value rest found shorter ih =>
    intro tail calm ends
    have outcome := read calm ends
    have foundLonger : (rule (strip (front ++ tail))).result = some (value, rest ++ tail) := by
      rw [outcome, Outcome.extend, found]
      rfl
    have part : rest <:+ front := (Forward.suffix found).trans (strip_suffix front)
    rw [spacedMany_of_some found shorter, spacedMany_of_some foundLonger (by simpa using shorter),
      outcome, ih (fun c member => calm c (part.subset member)) ends]
    simp [Outcome.extend, Option.map_map, Function.comp_def]

theorem separators {separator : String} (spare : stops.Spare separator) :
    Blind quiet stops (separators separator) :=
  bind spaces fun _ => bind (literal spare) fun _ => bind (spacedMany (literal spare)) fun _ =>
    pure ()

theorem followers {separator : String} {element : Rule α} [Forward element]
    (spare : stops.Spare separator) (blind : Blind quiet stops element) :
    Blind quiet stops (followers separator element) := by
  have each : Blind quiet stops (follower separator element) :=
    bind (separators spare) fun _ => spaced blind
  intro front
  induction front using repeat_induction (follower separator element) with
  | stop front missed =>
    intro tail calm ends
    have outcome := each calm ends
    rw [followers_of_none missed,
      followers_of_none (by rw [outcome, Outcome.extend, missed]; rfl), outcome]
    rfl
  | idle front value rest found same =>
    intro tail calm ends
    have outcome := each calm ends
    have foundLonger :
        (follower separator element (front ++ tail)).result = some (value, rest ++ tail) := by
      rw [outcome, Outcome.extend, found]
      rfl
    rw [followers_of_idle found same, followers_of_idle foundLonger (by simpa using same), outcome]
    rfl
  | step front value rest found shorter ih =>
    intro tail calm ends
    have outcome := each calm ends
    have foundLonger :
        (follower separator element (front ++ tail)).result = some (value, rest ++ tail) := by
      rw [outcome, Outcome.extend, found]
      rfl
    rw [followers_of_some found shorter, followers_of_some foundLonger (by simpa using shorter),
      outcome, ih (fun c member => calm c ((Forward.suffix found).subset member)) ends]
    simp [Outcome.extend, Option.map_map, Function.comp_def]

theorem separated {separator : String} {element : Rule α} [Forward element]
    (spare : stops.Spare separator) (blind : Blind quiet stops element) :
    Blind quiet stops (separated separator element) := by
  refine bind (spacedOptional blind) fun first => ?_
  cases first with
  | none => exact pure []
  | some value => exact bind (followers spare blind) fun _ => pure _

end Blind

end ActionString.Grammar
