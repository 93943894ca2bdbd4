import ActionString.Proofs.BlindRules
import ActionString.Proofs.Clauses
import ActionString.Proofs.Loops
import ActionString.Proofs.Words

/-!
# Commands before separators

Only quoted text can have a separator in it. So a command that is read up to a separator, with or
without quotes, is read alike whatever comes after the separator. For otherwise a quote is open at
the separator, and then the command takes the separator in.
-/

namespace ActionString.Grammar

open Rule Word

variable {α β : Type}

/-- Behind a front, a rule does not tell a separator from the end of the text. -/
def Settled (rule : Rule α) (front : List Char) : Prop :=
  ∀ ⦃tail⦄, Stops.both.At tail → rule (front ++ tail) = (rule front).extend tail

/-- A rule takes in every separator that comes behind a front. -/
def TakesIn (rule : Rule α) (front : List Char) : Prop :=
  ∀ ⦃tail⦄, Stops.both.At tail → tail ≠ [] →
    ∃ value rest, (rule (front ++ tail)).result = some (value, rest) ∧ rest.length < tail.length

/-- Behind a front, either no separator or every separator is taken in by a rule. -/
def Decided (rule : Rule α) (front : List Char) : Prop := Settled rule front ∨ TakesIn rule front

/-- What a rule reads behind which it is settled, it reads before every separator. -/
theorem Settled.result {rule : Rule α} {front tail : List Char} (settled : Settled rule front)
    (ends : Stops.both.At tail) : (rule (front ++ tail)).result =
      (rule front).result.map fun found => (found.1, found.2 ++ tail) := by
  rw [settled ends]
  rfl

/-- A rule that does not tell separators from the end in any text is settled. -/
theorem Settled.of_worded {rule : Rule α} (worded : Worded False rule) (front : List Char) :
    Settled rule front := by
  have blind : Blind (fun _ => True) .both rule := .of_worded_of_quoted False.elim worded
  exact fun _ ends => blind (fun _ _ => trivial) ends

namespace Decided

variable {front : List Char}

/-- A rule that is settled is decided. -/
theorem of_settled {rule : Rule α} (settled : Settled rule front) : Decided rule front :=
  .inl settled

/-- A rule that is made of words without quotes is decided. -/
theorem of_worded {rule : Rule α} (worded : Worded False rule) (front : List Char) :
    Decided rule front := .inl (.of_worded worded front)

/-- A choice of nothing is decided. -/
theorem nil (front : List Char) : Decided (firstOf ([] : List (Rule α))) front :=
  .inl fun _ _ => rfl

/-- An alternative is tried where the one before it does not apply, which is settled then. -/
theorem orElse {rule other : Rule α} (first : Decided rule front) (second : Decided other front) :
    Decided (Rule.orElse rule other) front := by
  obtain settled | takesIn := first
  · cases found : (rule front).result with
    | some pair =>
      refine .inl fun tail ends => ?_
      have longer : (rule (front ++ tail)).result = some (pair.1, pair.2 ++ tail) := by
        rw [settled.result ends, found]
        rfl
      rw [orElse_of_some longer, orElse_of_some found, settled ends]
      rfl
    | none =>
      have longer {tail : List Char} (ends : Stops.both.At tail) :
          (rule (front ++ tail)).result = none := by
        rw [settled.result ends, found]
        rfl
      refine second.imp (fun settledOther tail ends => ?_) fun takesIn tail ends more => ?_
      · rw [orElse_of_none (longer ends), orElse_of_none found, settled ends, settledOther ends]
        simp [Outcome.extend]
      · rw [orElse_of_none (longer ends)]
        exact takesIn ends more
  · refine .inr fun tail ends more => ?_
    obtain ⟨value, rest, found, shorter⟩ := takesIn ends more
    rw [orElse_of_some found]
    exact ⟨value, rest, rfl, shorter⟩

/-- A change of the value leaves a rule decided. -/
theorem map {rule : Rule α} {change : α → β} (decided : Decided rule front) :
    Decided (rule >>= fun value => pure (change value)) front := by
  refine decided.imp (fun settled tail ends => ?_) fun takesIn tail ends more => ?_
  · apply outcome_ext
    · cases found : (rule front).result <;>
        simp [result_bind, settled ends, Outcome.extend, found]
    · cases found : (rule front).result <;>
        simp [trace_bind, settled ends, Outcome.extend, found]
  · obtain ⟨value, rest, found, shorter⟩ := takesIn ends more
    exact ⟨change value, rest, by rw [result_bind_of_some found]; rfl, shorter⟩

/-- Behind a settled rule, a sequence is decided as its next rule is. -/
theorem bind {rule : Rule α} {next : α → Rule β} (settled : Settled rule front)
    (later : ∀ value rest, (rule front).result = some (value, rest) → Decided (next value) rest) :
    Decided (rule >>= next) front := by
  cases found : (rule front).result with
  | none =>
    refine .inl fun tail ends => ?_
    have longer : (rule (front ++ tail)).result = none := by
      rw [settled.result ends, found]
      rfl
    apply outcome_ext
    · rw [result_bind_of_none longer, Outcome.extend, result_bind_of_none found]
      rfl
    · simp [trace_bind, found, settled ends, Outcome.extend]
  | some pair =>
    obtain ⟨value, rest⟩ := pair
    have longer {tail : List Char} (ends : Stops.both.At tail) :
        (rule (front ++ tail)).result = some (value, rest ++ tail) := by
      rw [settled.result ends, found]
      rfl
    refine (later value rest found).imp (fun after tail ends => ?_) fun takesIn tail ends more => ?_
    · apply outcome_ext
      · rw [result_bind_of_some (longer ends), Outcome.extend, result_bind_of_some found,
          after.result ends]
      · simp [trace_bind, found, settled ends, after ends, Outcome.extend]
    · rw [result_bind_of_some (longer ends)]
      exact takesIn ends more

/-- A repetition is decided where its rule is decided everywhere. -/
theorem spacedMany {rule : Rule α} [Forward rule] [Consuming rule]
    (each : ∀ front, Decided rule front) (front : List Char) :
    Decided (Rule.spacedMany rule) front := by
  have stripped {front tail : List Char} (ends : Stops.both.At tail) :
      strip (front ++ tail) = strip front ++ tail := Stops.strip_append ends
  induction front using repeat_induction fun text => rule (strip text) with
  | idle front value rest found same =>
    exact absurd ((Consuming.shorter found).trans_le (strip_suffix front).length_le) same
  | stop front missed =>
    obtain settled | takesIn := each (strip front)
    · refine .inl fun tail ends => ?_
      have longer : (rule (strip (front ++ tail))).result = none := by
        rw [stripped ends, settled.result ends, missed]
        rfl
      rw [spacedMany_of_none longer, spacedMany_of_none missed, stripped ends, settled ends]
      rfl
    · exact .inr fun tail ends more => takenIn (stripped ends) (takesIn ends more)
  | step front value rest found shorter ih =>
    obtain settled | takesIn := each (strip front)
    · have longer {tail : List Char} (ends : Stops.both.At tail) :
          (rule (strip (front ++ tail))).result = some (value, rest ++ tail) := by
        rw [stripped ends, settled.result ends, found]
        rfl
      have less {tail : List Char} : (rest ++ tail).length < (front ++ tail).length := by
        simpa using shorter
      refine ih.imp (fun later tail ends => ?_) fun takesIn tail ends more => ?_
      · rw [spacedMany_of_some (longer ends) less, spacedMany_of_some found shorter,
          stripped ends, settled ends, later ends]
        simp [Outcome.extend, Option.map_map, Function.comp_def]
      · obtain ⟨values, last, others, fewer⟩ := takesIn ends more
        rw [spacedMany_of_some (longer ends) less, others]
        exact ⟨_, _, rfl, fewer⟩
    · exact .inr fun tail ends more => takenIn (stripped ends) (takesIn ends more)
where
  takenIn {rule : Rule α} [Forward rule] [Consuming rule] {front tail part : List Char}
      (stripped : strip (front ++ tail) = part ++ tail)
      (taken : ∃ value rest, (rule (part ++ tail)).result = some (value, rest) ∧
        rest.length < tail.length) :
      ∃ value rest, (Rule.spacedMany rule (front ++ tail)).result = some (value, rest) ∧
        rest.length < tail.length := by
    obtain ⟨value, rest, found, shorter⟩ := taken
    rw [← stripped] at found
    have less := (Consuming.shorter found).trans_le (strip_suffix _).length_le
    obtain ⟨values, last, loop⟩ : ∃ values last, Loops (fun _ => spaced rule) [] rest values last :=
      Loops.exists_loops [] rest
    have others := loop.result_spacedMany
    rw [spacedMany_of_some found less, others]
    exact ⟨_, _, rfl, (Forward.length_le others).trans_lt shorter⟩

/-- Where no quote begins a front, quoted text is not read before a separator either. -/
theorem settled_quotedText {front : List Char} (other : front.head? ≠ some '\x22') :
    Settled Word.quotedText front := by
  have blind : Blind (fun _ => True) .both (Rule.literal "\x22") := .literal (by decide)
  have mark : Settled (Rule.literal "\x22") front := fun _ ends => blind (fun _ _ => trivial) ends
  have missed : (Rule.literal "\x22" front).result = none := result_literal_of_ne rfl other
  intro tail ends
  apply outcome_ext
  · simp [Word.quotedText, result_bind, mark ends, Outcome.extend, missed]
  · simp [Word.quotedText, trace_bind, mark ends, Outcome.extend, missed]

/-- Quoted text takes a separator in when the quote is open at it. -/
theorem quotedText (front : List Char) : Decided Word.quotedText front := by
  by_cases quote : front.head? = some '\x22'
  swap
  · exact of_settled (settled_quotedText quote)
  obtain ⟨body, rfl⟩ := List.head?_eq_some_iff.mp quote
  let other (c : Char) : Bool := !decide (c = '\x22')
  have apart {text : List Char} (free : '\x22' ∉ text) : ∀ c ∈ text, other c = true :=
    fun c member => by
      have differs : c ≠ '\x22' := fun same => free (same ▸ member)
      simpa [other] using differs
  have mark (rest : List Char) :
      Rule.literal "\x22" ('\x22' :: rest) = ⟨some (['\x22'], rest), []⟩ := rfl
  have last (rest : List Char) :
      optional (Rule.literal "\x22") ('\x22' :: rest) = ⟨some (some ['\x22'], rest), []⟩ := rfl
  by_cases closed : '\x22' ∈ body
  · obtain ⟨inner, rest, rfl, free⟩ := List.eq_append_cons_of_mem closed
    have read (more : List Char) : Word.quotedText ('\x22' :: (inner ++ '\x22' :: more)) =
        ⟨some (inner, more), []⟩ := by
      obtain ⟨taken, dropped⟩ := @span_append other inner ('\x22' :: more) (apart free)
        (by simp [other])
      apply outcome_ext
      · simp [Word.quotedText, result_bind, mark, Rule.run, taken, dropped, last, other]
      · simp [Word.quotedText, trace_bind, mark, Rule.run, dropped, last, other]
    refine of_settled fun tail ends => ?_
    have whole : '\x22' :: (inner ++ '\x22' :: rest) ++ tail =
        '\x22' :: (inner ++ '\x22' :: (rest ++ tail)) := by simp
    rw [whole, read, read]
    rfl
  · -- The quote is open, so the text is read to the next one, or to the end.
    refine .inr fun tail ends more => ?_
    have behind : (body ++ tail).dropWhile other = tail.dropWhile other :=
      List.dropWhile_append_of_pos (apart closed)
    have shorter : (tail.dropWhile other).length < tail.length := by
      cases tail with
      | nil => exact absurd rfl more
      | cons c rest =>
        have stop : other c = true := by
          have : ∀ c ∈ Stops.both.chars, other c = true := by decide
          exact this c (ends c rfl)
        rw [List.dropWhile_cons_of_pos stop]
        exact Nat.lt_succ_of_le (List.dropWhile_suffix _).length_le
    obtain ⟨mark?, rest, found⟩ : ∃ mark? rest,
        (optional (Rule.literal "\x22") (tail.dropWhile other)).result = some (mark?, rest) := by
      rw [result_optional]
      exact ⟨_, _, rfl⟩
    refine ⟨(body ++ tail).takeWhile other, rest, ?_, (Forward.length_le found).trans_lt shorter⟩
    simp [Word.quotedText, result_bind, mark, Rule.run, behind, found, other]

/-- Every command is decided at separators. -/
theorem phrase (front : List Char) : Decided Grammar.phrase front := by
  have text (front : List Char) : Decided Word.text front :=
    (quotedText front).orElse ((of_worded (.chars _) front).orElse (nil front))
  have arguments {kind : CommandKind} {argument : Rule Argument} [Consuming argument]
      [Forward argument] (unbroken : Unbroken kind.word)
      (each : ∀ front, Decided argument front) (front : List Char) :
      Decided (withArguments kind argument) front :=
    bind (.of_worded (.keyword unbroken) front) fun _ rest _ => map (spacedMany each rest)
  have kinds : ∀ kind ∈ CommandKind.recognized, Decided (phraseOf kind) front := by
    intro kind known
    by_cases say : kind = .say
    · subst say
      exact arguments (by decide) (fun front => map (text front)) front
    by_cases sign : kind = .sign
    · subst sign
      have color (key : String) (unbroken : Unbroken key) (front : List Char) :
          Decided (Argument.colorParameter (keyword key)) front :=
        of_worded (.colorParameter (.keyword unbroken)) front
      have each (front : List Char) : Decided Argument.sign front :=
        (color "color" (by decide) front).orElse ((color "bcolor" (by decide) front).orElse
          ((of_worded .name front).orElse ((map (text front)).orElse (nil front))))
      exact arguments (by decide) each front
    exact of_worded (.phraseOf_of_ne known say sign) front
  have blind : Blind (fun _ => True) .both Grammar.unrecognized :=
    .bind (.run (by decide)) fun _ => .pure _
  have unrecognized : Settled Grammar.unrecognized front :=
    fun _ ends => blind (fun _ _ => trivial) ends
  have choice {others : List CommandKind} (known : ∀ kind ∈ others, kind ∈ CommandKind.recognized) :
      Decided (firstOf ((others ++ [CommandKind.invalid]).map phraseOf)) front := by
    induction others with
    | nil => exact (of_settled unrecognized).orElse (nil front)
    | cons kind others ih =>
      rw [List.forall_mem_cons] at known
      exact (kinds kind known.1).orElse (ih known.2)
  exact @choice CommandKind.recognized fun _ member => member

end Decided

/-- A command that leaves a separator unread is read alike before every separator. -/
theorem settled_of_result {front tail rest : List Char} {value : Phrase}
    (ends : Stops.both.At tail) (more : tail ≠ [])
    (found : (phrase (front ++ tail)).result = some (value, rest))
    (left : tail.length ≤ rest.length) : Settled phrase front := by
  refine (Decided.phrase front).resolve_right fun takesIn => ?_
  obtain ⟨_, _, same, shorter⟩ := takesIn ends more
  rw [found] at same
  cases same
  omega

end ActionString.Grammar
