import ActionString.Proofs.BlindRules
import ActionString.Proofs.Clauses
import ActionString.Proofs.Reading

/-!
# Reading across a comma

A text without quotes is read up to a comma in a way that does not depend on what comes after the
comma, unless the comma is reached between two commands; and then reading goes on from the comma
alone. This holds for the commands of a clause, for a clause, and for the clauses of a text.
-/

namespace ActionString

namespace Grammar

open Rule

variable {α β ι : Type}

/-- What a rule makes of a text up to a comma, whatever comes after the comma: it misses, it stops
before the comma, or it goes on from the comma with another rule. -/
inductive Crossing (rule : Rule α) (onward : Rule β) (finish : ι → β → α)
    (front : List Char) : Prop where
  | missed (none : ∀ more, (rule (front ++ ',' :: more)).result = none)
  | stopped (value : α) (rest : List Char) (part : rest <:+ front)
      (found : ∀ more, (rule (front ++ ',' :: more)).result = some (value, rest ++ ',' :: more))
  | reached (state : ι)
      (found : ∀ more, (rule (front ++ ',' :: more)).result =
        (onward (',' :: more)).result.map fun found => (finish state found.1, found.2))

/-- A comma ends the words before it. -/
theorem at_comma (more : List Char) : Stops.both.At (',' :: more) := Stops.at_cons (by decide) more

/-- Semicolons are passed over up to a comma. -/
theorem passOver_semicolon_append (front more : List Char) :
    passOver ';' (front ++ ',' :: more) = passOver ';' front ++ ',' :: more := by
  rw [passOver, passOver, List.dropWhile_append]
  split
  · rename_i ended
    rw [List.isEmpty_iff.mp ended]
    rfl
  · rfl

/-- A command without quotes ends before a comma. -/
theorem result_phrase_append {front rest : List Char} {value : Phrase}
    (unquoted : ∀ c ∈ front, c ≠ '\x22') (found : (phrase front).result = some (value, rest))
    (more : List Char) :
    (phrase (front ++ ',' :: more)).result = some (value, rest ++ ',' :: more) := by
  have blind : Blind (· ≠ '\x22') .both phrase := Blind.phrase
  rw [blind unquoted (at_comma more), Outcome.extend, found]
  rfl

/-- From one comma to another, the commands after a comma are read again. -/
theorem result_morePhrases_comma {first second : List Char}
    (frontFirst : (strip first).head? = some ',') (frontSecond : (strip second).head? = some ',')
    (same : passOver ',' first = passOver ',' second) :
    (morePhrases first).result = (morePhrases second).result := by
  obtain ⟨value, rest, found⟩ := exists_result_phrase (passOver ',' second)
  rw [result_morePhrases_of_eq frontSecond found, result_morePhrases_of_eq frontFirst (same ▸ found)]

/-- The commands after a first one reach a comma between two of them, or stop before it. -/
theorem crossing_morePhrases (front : List Char) (unquoted : ∀ c ∈ front, c ≠ '\x22') :
    Crossing morePhrases morePhrases (· ++ ·) front := by
  induction length : front.length using Nat.strong_induction_on generalizing front with
  | _ size ih =>
    subst length
    have stripped (more : List Char) : strip (front ++ ',' :: more) = strip front ++ ',' :: more :=
      Stops.strip_append (at_comma more)
    cases start : strip front with
    | nil =>
      -- Only spaces are before the comma.
      have ended : passOver ',' front = [] := by rw [← passOver_strip, start]; rfl
      refine .reached [] fun more => ?_
      rw [result_morePhrases_comma (by rw [stripped, start]; rfl) rfl
        (passOver_append_of_nil ended _)]
      simp
    | cons c after =>
      by_cases comma : c = ','
      · subst comma
        have head (more : List Char) : (strip (front ++ ',' :: more)).head? = some ',' := by
          rw [stripped, start]
          rfl
        by_cases ended : passOver ',' front = []
        · refine .reached [] fun more => ?_
          rw [result_morePhrases_comma (head more) rfl (passOver_append_of_nil ended _)]
          simp
        · obtain ⟨value, rest, found⟩ := exists_result_phrase (passOver ',' front)
          have part : rest <:+ front := (Forward.suffix found).trans (passOver_suffix front)
          have shorter : rest.length < front.length :=
            Nat.lt_of_le_of_lt (Forward.length_le found) (length_passOver_lt (by rw [start]; rfl))
          have next (more : List Char) : (morePhrases (front ++ ',' :: more)).result =
              (morePhrases (rest ++ ',' :: more)).result.map fun more =>
                (value :: more.1, more.2) := by
            have calm : ∀ c ∈ passOver ',' front, c ≠ '\x22' := fun c member =>
              unquoted c ((passOver_suffix front).subset member)
            refine result_morePhrases_of_eq (head more) ?_
            rw [passOver_append_of_ne ended, result_phrase_append calm found]
          cases ih _ shorter rest (fun c member => unquoted c (part.subset member)) rfl with
          | missed none => exact .missed fun more => by rw [next, none]; rfl
          | stopped values last within found =>
            exact .stopped (value :: values) last (within.trans part) fun more => by
              rw [next, found]
              rfl
          | reached values found =>
            refine .reached (value :: values) fun more => ?_
            rw [next, found, Option.map_map]
            rfl
      · refine .stopped [] front (List.suffix_refl front) fun more => ?_
        refine result_morePhrases_of_ne ?_
        rw [stripped, start]
        simpa using comma

/-- A clause reaches a comma between two of its commands, or does not depend on what comes after
the comma. -/
theorem crossing_clause (front : List Char) (unquoted : ∀ c ∈ front, c ≠ '\x22') :
    Crossing clause morePhrases
      (fun (state : Trigger × List Phrase) more => ⟨state.1, state.2 ++ more⟩) front := by
  have outcome (more : List Char) : trigger (front ++ ',' :: more) =
      (trigger front).extend (',' :: more) := Blind.trigger unquoted (at_comma more)
  cases first : (trigger front).result with
  | none =>
    refine .missed fun more => result_clause_of_none ?_
    rw [outcome, Outcome.extend, first]
    rfl
  | some pair =>
    obtain ⟨kind, middle⟩ := pair
    have partMiddle := Forward.suffix first
    obtain ⟨value, rest, found⟩ := exists_result_phrase (strip middle)
    have part : rest <:+ front :=
      (Forward.suffix found).trans ((strip_suffix middle).trans partMiddle)
    have next (more : List Char) : (clause (front ++ ',' :: more)).result =
        (morePhrases (rest ++ ',' :: more)).result.map fun more =>
          (⟨kind, value :: more.1⟩, more.2) := by
      have calm : ∀ c ∈ strip middle, c ≠ '\x22' := fun c member =>
        unquoted c (partMiddle.subset ((strip_suffix middle).subset member))
      have begun : (trigger (front ++ ',' :: more)).result = some (kind, middle ++ ',' :: more) := by
        rw [outcome, Outcome.extend, first]
        rfl
      refine result_clause_of_some begun ?_
      rw [Stops.strip_append (at_comma more), result_phrase_append calm found]
    cases crossing_morePhrases rest fun c member => unquoted c (part.subset member) with
    | missed none => exact .missed fun more => by rw [next, none]; rfl
    | stopped values last within found =>
      exact .stopped ⟨kind, value :: values⟩ last (within.trans part) fun more => by
        rw [next, found]
        rfl
    | reached values found =>
      refine .reached (kind, value :: values) fun more => ?_
      rw [next, found, Option.map_map]
      rfl

/-- The clauses of a list that begins with a clause. -/
def someClauses : Rule (List Clause) :=
  clause >>= fun first => (first :: ·) <$> followers ";" clause

/-- The commands after a comma, and the clauses after them. -/
def onward : Rule (List Phrase × List Clause) :=
  morePhrases >>= fun phrases => (phrases, ·) <$> followers ";" clause

/-- The clauses of a text that goes on after a comma: those before, the one with the comma, and
those after it. -/
def joined (state : List Clause × Trigger × List Phrase) (more : List Phrase × List Clause) :
    List Clause :=
  state.1 ++ ⟨state.2.1, state.2.2 ++ more.1⟩ :: more.2

/-- Reading goes on from every text. -/
theorem exists_result_onward (text : List Char) :
    ∃ value rest, (onward text).result = some (value, rest) := by
  obtain ⟨phrases, last, first⟩ := exists_result_morePhrases text
  obtain ⟨clauses, rest, second⟩ := exists_result_followers ";" clause last
  exact ⟨(phrases, clauses), rest, by rw [onward, result_bind_of_some first, result_map, second]; rfl⟩

/-- A list of clauses is read where it begins with one, and is empty elsewhere. -/
theorem result_separated_eq (text : List Char) :
    (separated ";" clause text).result =
      (someClauses (strip text)).result.or (some ([], text)) := by
  cases first : (clause (strip text)).result with
  | none => rw [result_separated_of_none first, someClauses, result_bind_of_none first]; rfl
  | some pair =>
    obtain ⟨clauses, rest, more⟩ := exists_result_followers ";" clause pair.2
    rw [result_separated_of_some first, someClauses, result_bind_of_some first, result_map, more]
    rfl

/-- After a semicolon, a list of clauses is read where one begins. -/
theorem result_followers_eq {text : List Char} (front : (strip text).head? = some ';') :
    (followers ";" clause text).result =
      (someClauses (passOver ';' text)).result.or (some ([], text)) := by
  have single : (";" : String).toList = [';'] := rfl
  cases first : (clause (passOver ';' text)).result with
  | none =>
    rw [result_followers_of_none single first, someClauses, result_bind_of_none first]
    rfl
  | some pair =>
    obtain ⟨clauses, rest, more⟩ := exists_result_followers ";" clause pair.2
    rw [result_followers_of_some single front first, someClauses, result_bind_of_some first,
      result_map, more]
    rfl

/-- A list of clauses crosses the comma as its first clause does, or as the clauses after it. -/
theorem crossing_someClauses (front : List Char) (unquoted : ∀ c ∈ front, c ≠ '\x22')
    (later : ∀ rest, rest <:+ front → Crossing (followers ";" clause) onward joined rest) :
    Crossing someClauses onward joined front := by
  cases crossing_clause front unquoted with
  | missed none => exact .missed fun more => result_bind_of_none (none more) _
  | stopped value rest part found =>
    have next (more : List Char) : (someClauses (front ++ ',' :: more)).result =
        (followers ";" clause (rest ++ ',' :: more)).result.map fun more =>
          (value :: more.1, more.2) := by
      rw [someClauses, result_bind_of_some (found more), result_map]
    cases later rest part with
    | missed none => exact .missed fun more => by rw [next, none]; rfl
    | stopped values last within result =>
      exact .stopped (value :: values) last (within.trans part) fun more => by
        rw [next, result]
        rfl
    | reached state result =>
      refine .reached (value :: state.1, state.2) fun more => ?_
      rw [next, result, Option.map_map]
      rfl
  | reached state found =>
    refine .reached ([], state) fun more => ?_
    rw [someClauses, onward, result_bind, found, result_bind]
    cases (morePhrases (',' :: more)).result with
    | none => rfl
    | some pair => simp [result_map, Option.map_map, Function.comp_def, joined]

/-- Where there may be no list of clauses, the comma is crossed as by the list if there is one. -/
theorem Crossing.or {rule whole : Rule (List Clause)} {part front : List Char}
    (within : part <:+ front)
    (choice : ∀ more, (whole (front ++ ',' :: more)).result =
      (rule (part ++ ',' :: more)).result.or (some ([], front ++ ',' :: more)))
    (crossing : Crossing rule onward joined part) : Crossing whole onward joined front := by
  cases crossing with
  | missed none =>
    exact .stopped [] front (List.suffix_refl front) fun more => by rw [choice, none]; rfl
  | stopped value rest inner found =>
    exact .stopped value rest (inner.trans within) fun more => by rw [choice, found]; rfl
  | reached state found =>
    refine .reached state fun more => ?_
    obtain ⟨value, rest, result⟩ := exists_result_onward (',' :: more)
    rw [choice, found, result]
    rfl

/-- The clauses after a first one cross the comma, or stop before it. -/
theorem crossing_followers (front : List Char) (unquoted : ∀ c ∈ front, c ≠ '\x22') :
    Crossing (followers ";" clause) onward joined front := by
  induction length : front.length using Nat.strong_induction_on generalizing front with
  | _ size ih =>
    subst length
    have single : (";" : String).toList = [';'] := rfl
    have stripped (more : List Char) : strip (front ++ ',' :: more) = strip front ++ ',' :: more :=
      Stops.strip_append (at_comma more)
    by_cases semicolon : (strip front).head? = some ';'
    · obtain ⟨after, start⟩ := List.head?_eq_some_iff.mp semicolon
      have within : passOver ';' front <:+ front := passOver_suffix front
      have shorter : (passOver ';' front).length < front.length := length_passOver_lt semicolon
      refine Crossing.or within (fun more => ?_) (crossing_someClauses _
        (fun c member => unquoted c (within.subset member)) fun rest part => ?_)
      · rw [← passOver_semicolon_append]
        exact result_followers_eq (by rw [stripped, start]; rfl)
      · exact ih _ (Nat.lt_of_le_of_lt part.length_le shorter) rest
          (fun c member => unquoted c (within.subset (part.subset member))) rfl
    · refine .stopped [] front (List.suffix_refl front) fun more => ?_
      refine result_followers_of_ne single clause ?_
      rw [stripped]
      cases start : strip front with
      | nil => simp
      | cons c after => simpa [start] using semicolon

/-- The clauses of a text cross the comma, or stop before it. -/
theorem crossing_separated (front : List Char) (unquoted : ∀ c ∈ front, c ≠ '\x22') :
    Crossing (separated ";" clause) onward joined front := by
  have within := strip_suffix front
  have calm {part : List Char} (inner : part <:+ front) : ∀ c ∈ part, c ≠ '\x22' :=
    fun c member => unquoted c (inner.subset member)
  refine Crossing.or within (fun more => ?_) (crossing_someClauses _ (calm within)
    fun rest part => crossing_followers rest (calm (part.trans within)))
  rw [← Stops.strip_append (at_comma more)]
  exact result_separated_eq _

/-- A text in which a comma is left over is not closed. -/
theorem not_closes_comma (rest more : List Char) : ¬Closes (rest ++ ',' :: more) := by
  have solid {text : List Char} (member : ',' ∈ text) : blank text ≠ true := by
    rw [Ne, blank, List.all_eq_true]
    exact fun all => absurd (all _ member) (by decide)
  rintro (ended | ⟨last, stripped, ended⟩)
  · exact solid (by simp) ended
  · rw [Stops.strip_append (at_comma more)] at stripped
    have member : ',' ∈ ';' :: last := by rw [← stripped]; simp
    exact solid ((List.mem_cons.mp member).resolve_left (by decide)) ended

/-- A text is rejected whatever comes after a comma, or what is read of it is what comes before
the comma joined with what is read from the comma on. -/
theorem read_comma (front : List Char) (unquoted : ∀ c ∈ front, c ≠ '\x22') :
    (∀ more found, read (front ++ ',' :: more) ≠ .ok found) ∨
      ∃ state, ∀ more found, read (front ++ ',' :: more) = .ok found ↔
        ∃ value rest, (onward (',' :: more)).result = some (value, rest) ∧ Closes rest ∧
          found = joined state value := by
  cases crossing_separated front unquoted with
  | missed none =>
    refine .inl fun more found accepted => ?_
    obtain ⟨rest, list, -⟩ := read_eq_ok_iff.mp accepted
    rw [none] at list
    cases list
  | stopped value last part stopped =>
    refine .inl fun more found accepted => ?_
    obtain ⟨rest, list, closes⟩ := read_eq_ok_iff.mp accepted
    rw [stopped] at list
    cases list
    exact not_closes_comma last more closes
  | reached state reached =>
    refine .inr ⟨state, fun more found => ?_⟩
    rw [read_eq_ok_iff, reached]
    constructor
    · rintro ⟨rest, list, closes⟩
      obtain ⟨⟨value, last⟩, result, same⟩ := Option.map_eq_some_iff.mp list
      cases same
      exact ⟨value, last, result, closes, rfl⟩
    · rintro ⟨value, rest, result, closes, rfl⟩
      exact ⟨rest, by rw [result]; rfl, closes⟩

end Grammar

end ActionString
