import ActionString.Proofs.Crossing

/-!
# Texts up to a semicolon

Without quotes before a semicolon, what is read before it does not depend on what comes after it.
Reading stops before the semicolon, and then the text is rejected unless the semicolon ends it, or
it goes on with the clauses after the semicolon as with a text of their own.
-/

namespace ActionString.Grammar

open Rule

/-- How a rule for clauses takes a semicolon after a front: it stops before the semicolon whatever
comes after it, or it goes on with the clauses after the semicolon where there are some. -/
inductive Reaching (rule : Rule (List Clause)) (front : List Char) : Prop
  | stopped (values : List Clause) (rest : List Char)
      (found : ∀ more, (rule (front ++ ';' :: more)).result = some (values, rest ++ ';' :: more))
  | reached (values : List Clause)
      (found : ∀ more later last, (someClauses (passOver ';' more)).result = some (later, last) →
        (rule (front ++ ';' :: more)).result = some (values ++ later, last))

/-- A semicolon ends the words before it. -/
theorem at_semicolon (more : List Char) : Stops.semicolon.At (';' :: more) :=
  Stops.at_cons (by decide) more

/-- A list reaches a semicolon as the clauses after its first one do. -/
theorem Reaching.cons {whole : Rule (List Clause)} {front rest : List Char} {value : Clause}
    (next : ∀ more, (whole (front ++ ';' :: more)).result =
      (followers ";" clause (rest ++ ';' :: more)).result.map fun more =>
        (value :: more.1, more.2))
    (reaching : Reaching (followers ";" clause) rest) : Reaching whole front := by
  cases reaching with
  | stopped values last found =>
    refine .stopped (value :: values) last fun more => ?_
    rw [next, found]
    rfl
  | reached values found =>
    refine .reached (value :: values) fun more later last result => ?_
    rw [next, found more later last result]
    rfl

/-- The clauses after a first one reach a semicolon or stop before it. -/
theorem reaching_followers (front : List Char) (unquoted : ∀ c ∈ front, c ≠ '\x22') :
    Reaching (followers ";" clause) front := by
  induction length : front.length using Nat.strong_induction_on generalizing front with
  | _ size ih =>
    subst length
    have single : (";" : String).toList = [';'] := rfl
    have stripped (more : List Char) : strip (front ++ ';' :: more) = strip front ++ ';' :: more :=
      Stops.strip_append (at_semicolon more)
    have within := passOver_suffix (d := ';') front
    by_cases ended : passOver ';' front = []
    · -- There are only spaces and semicolons in front.
      refine .reached [] fun more later last result => ?_
      have head : (strip (front ++ ';' :: more)).head? = some ';' := by
        rw [stripped]
        cases start : strip front with
        | nil => rfl
        | cons c after =>
          rw [← passOver_strip, start] at ended
          by_cases semicolon : c = ';'
          · rw [semicolon]
            rfl
          · rw [passOver_of_solid (isSpace_of_strip start) semicolon] at ended
            cases ended
      have passed : passOver ';' (front ++ ';' :: more) = passOver ';' more := by
        rw [passOver_append_of_nil ended, passOver_cons]
      rw [result_followers_eq head, passed, result]
      rfl
    · by_cases semicolon : (strip front).head? = some ';'
      · have head (more : List Char) : (strip (front ++ ';' :: more)).head? = some ';' := by
          rw [stripped, List.head?_append, semicolon]
          rfl
        have read (more : List Char) := result_clause_append
          (fun c member => unquoted c (within.subset member)) (at_semicolon more)
        cases first : (clause (passOver ';' front)).result with
        | none =>
          refine .stopped [] front fun more => result_followers_of_none single ?_
          rw [passOver_append_of_ne ended, read, first]
          rfl
        | some pair =>
          obtain ⟨value, rest⟩ := pair
          have part : rest <:+ front := (Forward.suffix first).trans within
          have shorter : rest.length < front.length :=
            Nat.lt_of_le_of_lt (Forward.length_le first) (length_passOver_lt semicolon)
          have next (more : List Char) : (followers ";" clause (front ++ ';' :: more)).result =
              (followers ";" clause (rest ++ ';' :: more)).result.map fun more =>
                (value :: more.1, more.2) := by
            refine result_followers_of_some single (head more) ?_
            rw [passOver_append_of_ne ended, read, first]
            rfl
          exact .cons next (ih _ shorter rest (fun c member => unquoted c (part.subset member)) rfl)
      · refine .stopped [] front fun more => result_followers_of_ne single clause ?_
        rw [stripped]
        cases start : strip front with
        | nil =>
          rw [← passOver_strip, start] at ended
          exact absurd rfl ended
        | cons c after => simpa [start] using semicolon

/-- The clauses of a text reach a semicolon or stop before it. -/
theorem reaching_separated (front : List Char) (unquoted : ∀ c ∈ front, c ≠ '\x22') :
    Reaching (separated ";" clause) front := by
  have within := strip_suffix front
  have read (more : List Char) : (clause (strip (front ++ ';' :: more))).result =
      (clause (strip front)).result.map fun found => (found.1, found.2 ++ ';' :: more) := by
    rw [Stops.strip_append (at_semicolon more)]
    exact result_clause_append (fun c member => unquoted c (within.subset member)) (at_semicolon more)
  cases first : (clause (strip front)).result with
  | none =>
    refine .stopped [] front fun more => result_separated_of_none ?_
    rw [read, first]
    rfl
  | some pair =>
    obtain ⟨value, rest⟩ := pair
    have part : rest <:+ front := (Forward.suffix first).trans within
    have next (more : List Char) : (separated ";" clause (front ++ ';' :: more)).result =
        (followers ";" clause (rest ++ ';' :: more)).result.map fun more =>
          (value :: more.1, more.2) := by
      refine result_separated_of_some ?_
      rw [read, first]
      rfl
    exact .cons next (reaching_followers rest fun c member => unquoted c (part.subset member))

/-- Whether a text closes a list of clauses does not depend on the spaces at its front. -/
theorem closes_congr {first second : List Char} (same : strip first = strip second) :
    Closes first ↔ Closes second := by
  rw [Closes, Closes, ← strip_eq_nil_iff, ← strip_eq_nil_iff, same]

/-- A text in which a semicolon with more behind it is left over is not closed. -/
theorem not_closes_semicolon (rest : List Char) {more : List Char} (solid : blank more = false) :
    ¬Closes (rest ++ ';' :: more) := by
  have part {text : List Char} (ended : blank text = true) : more <:+ text → False := by
    rintro ⟨front, rfl⟩
    rw [blank, List.all_append, Bool.and_eq_true] at ended
    rw [blank, ended.2] at solid
    cases solid
  rintro (ended | ⟨last, stripped, ended⟩)
  · exact part ended ((List.suffix_cons _ _).trans (List.suffix_append _ _))
  · rw [Stops.strip_append (at_semicolon more)] at stripped
    cases start : strip rest with
    | nil =>
      rw [start] at stripped
      cases stripped
      exact part ended (List.suffix_refl _)
    | cons c after =>
      rw [start] at stripped
      cases stripped
      exact part ended ((List.suffix_cons _ _).trans (List.suffix_append _ _))

end ActionString.Grammar
