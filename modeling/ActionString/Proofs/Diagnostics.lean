import ActionString.Proofs.Furthest
import Mathlib

/-!
# Diagnostics of rejected sources

A rejected source has a diagnostic that is true of it. It points at a place of the cleaned source,
which it names by the character there or by the end, and it lists something, of which nothing stands
at that place. The report that explains the source is the report of this diagnostic, and a source
that is accepted has none.
-/

namespace ActionString

/-- A class is known from its description. -/
theorem CharClass.description_injective : Function.Injective CharClass.description := by
  intro first second same
  cases first <;> cases second <;> first | rfl | exact absurd same (by decide)

/-- Where a described class does not stand, it refuses the character that is there. -/
theorem Expected.exists_refused {text : List Char} {description : String}
    (absent : ¬(charClass description).StandsAt text) :
    ∃ kind : CharClass, kind.description = description ∧ ∀ c ∈ text.head?, kind.accepts c = false := by
  rw [StandsAt, not_forall] at absent
  obtain ⟨kind, refused⟩ := absent
  rw [Classical.not_imp] at refused
  refine ⟨kind, refused.1, fun c front => Bool.eq_false_iff.mpr fun accepted => ?_⟩
  exact refused.2 ⟨c, front, accepted⟩

namespace Diagnostic

/-- A diagnostic begins at the place that it is made for. -/
theorem span_start_atOffset (before after : List Char) (expected : List Expected) :
    (atOffset (before ++ after) (Text.byteSize before) expected).span.start =
      Text.byteSize before := by
  rw [atOffset, Text.splitAtByte_byteSize]
  cases after <;> rfl

/-- A diagnostic covers the character at its place, and nothing at the end. -/
theorem span_length_atOffset (before after : List Char) (expected : List Expected) :
    (atOffset (before ++ after) (Text.byteSize before) expected).span.length =
      after.head?.elim 0 Char.utf8Size := by
  rw [atOffset, Text.splitAtByte_byteSize]
  cases after with
  | nil =>
    simp [Span.point, Span.between, Span.length]
  | cons c rest =>
    simp [Span.between, Span.length]

/-- A diagnostic complains about the character at its place, or about the end. -/
theorem complaint_atOffset (before after : List Char) (expected : List Expected) :
    (atOffset (before ++ after) (Text.byteSize before) expected).complaint =
      after.head?.elim .unexpectedEnd .unexpected := by
  rw [atOffset, Text.splitAtByte_byteSize]
  cases after <;> rfl

/-- A report begins with the line and the column of its diagnostic. -/
theorem exists_report_eq (diagnostic : Diagnostic) :
    ∃ rest, diagnostic.report = "Line " ++ toString diagnostic.line ++ ", col " ++ rest := by
  unfold report
  simp only [String.append_assoc]
  exact ⟨_, rfl⟩

/-- No report is empty. -/
theorem report_ne_empty (diagnostic : Diagnostic) : diagnostic.report ≠ "" := by
  obtain ⟨rest, report⟩ := diagnostic.exists_report_eq
  rw [report]
  simp [String.ext_iff]

end Diagnostic

/-- A diagnostic is founded on a text that is understood up to a place when it points at this place
and what it lists is missing there. -/
structure Diagnostic.Founded (before after : List Char) (diagnostic : Diagnostic) : Prop where
  start_eq : diagnostic.span.start = Text.byteSize before
  code_iff : diagnostic.complaint.code = "E101" ↔
    Text.byteSize before = Text.byteSize (before ++ after)
  listed : diagnostic.expected ≠ []
  literal : ∀ word, .literal word ∈ diagnostic.expected → ¬word.toList <+: after
  described : ∀ description, .charClass description ∈ diagnostic.expected →
    ∃ kind : CharClass, kind.description = description
  charClass : ∀ kind : CharClass, .charClass kind.description ∈ diagnostic.expected →
    ∀ c ∈ after.head?, kind.accepts c = false
  endOfInput : .endOfInput ∈ diagnostic.expected →
    Text.byteSize before < Text.byteSize (before ++ after)

/-- The diagnostic of a place is founded when something is listed and none of it stands there. -/
theorem Diagnostic.founded_atOffset {before after : List Char} {expected : List Expected}
    (listed : expected ≠ []) (absent : ∀ item ∈ expected, ¬item.StandsAt after) :
    (atOffset (before ++ after) (Text.byteSize before) expected).Founded before after where
  start_eq := span_start_atOffset before after expected
  code_iff := by
    rw [complaint_atOffset, Text.byteSize_append]
    cases after with
    | nil => simp [Complaint.code, Complaint.endCode]
    | cons c rest =>
      have positive := c.utf8Size_pos
      simp [Complaint.code, Complaint.unexpectedCode]
      omega
  listed := by
    obtain ⟨item, member⟩ := List.exists_mem_of_ne_nil expected listed
    exact List.ne_nil_of_mem (Expected.mem_ordered.mpr member)
  literal word member := absent _ (Expected.mem_ordered.mp member)
  described description member := by
    obtain ⟨kind, described, -⟩ := Expected.exists_refused (absent _ (Expected.mem_ordered.mp member))
    exact ⟨kind, described⟩
  charClass kind member c front := by
    obtain ⟨other, described, refused⟩ :=
      Expected.exists_refused (absent _ (Expected.mem_ordered.mp member))
    rw [← CharClass.description_injective described]
    exact refused c front
  endOfInput member := by
    have more : after ≠ [] := absent _ (Expected.mem_ordered.mp member)
    have positive : Text.byteSize after ≠ 0 := fun empty => more (Text.eq_nil_of_byteSize empty)
    rw [Text.byteSize_append]
    omega

/-- A source that is read has nothing to explain. -/
theorem explain_of_read {source : String} {clauses : List Clause}
    (accepted : Grammar.read (clean source.toList) = .ok clauses) : explain source = "" := by
  unfold explain
  dsimp only
  rw [accepted]

/-- A source that is not read is explained by the report of its failure. -/
theorem explain_of_failure {source : String} {failure : Grammar.Failure}
    (rejected : Grammar.read (clean source.toList) = .error failure) :
    explain source = (failure.diagnostic (clean source.toList)).report := by
  unfold explain
  dsimp only
  rw [rejected]

/-- A source that is not read is rejected with the diagnostic of its failure. -/
theorem tryParse_of_failure {source : String} {failure : Grammar.Failure}
    (rejected : Grammar.read (clean source.toList) = .error failure) :
    tryParse source = .error (failure.diagnostic (clean source.toList)) := by
  have raw : parseRaw source = .error (failure.diagnostic (clean source.toList)) := by
    unfold parseRaw
    dsimp only
    rw [rejected]
  rw [tryParse, raw]
  rfl

/-- A source that is read is accepted with its merged actions. -/
theorem tryParse_of_read {source : String} {clauses : List Clause}
    (accepted : Grammar.read (clean source.toList) = .ok clauses) :
    tryParse source = .ok (mergeActions (clauses.map Clause.rawAction)) := by
  have raw : parseRaw source = .ok (clauses.map Clause.rawAction) :=
    parseRaw_eq_ok_iff.mpr ⟨clauses, accepted, rfl⟩
  rw [tryParse, raw]
  rfl

/-- The diagnostic of a rejected source is founded at a place of the cleaned source, which is the
place of the failure, and is what explains the source. An accepted source has no explanation. -/
theorem explain_founded (source : String) :
    ((tryParse source).isOk = true → explain source = "") ∧
      ∀ failure, Grammar.read (clean source.toList) = .error failure →
        failure.offset ≤ Text.byteSize (clean source.toList) ∧
        ∃ before after diagnostic,
          clean source.toList = before ++ after ∧ failure.offset = Text.byteSize before ∧
          tryParse source = .error diagnostic ∧ diagnostic.Founded before after ∧
          explain source = diagnostic.report ∧ explain source ≠ "" := by
  constructor
  · intro accepted
    rw [isOk_tryParse] at accepted
    obtain ⟨clauses, read⟩ := isOk_parseRaw_iff.mp accepted
    exact explain_of_read read
  · intro failure rejected
    obtain ⟨before, after, whole, offset, listed, absent⟩ :=
      Grammar.exists_place_of_read_error rejected
    have explained := explain_of_failure rejected
    have founded : (Diagnostic.atOffset (before ++ after) (Text.byteSize before)
        failure.expected).Founded before after := Diagnostic.founded_atOffset listed absent
    rw [← whole, ← offset] at founded
    constructor
    · rw [offset, whole, Text.byteSize_append]
      exact Nat.le_add_right _ _
    · refine ⟨before, after, _, whole, offset, tryParse_of_failure rejected, founded, explained, ?_⟩
      rw [explained]
      exact Diagnostic.report_ne_empty _

set_option maxRecDepth 100000 in
/-- A colour may be followed by more arguments, by a separator or by the end, but not by a caret. -/
theorem explain_founded_caret :
    Grammar.read (clean "create color é\x7f^".toList) = .error ⟨15, [.literal "name",
      .charClass "a color", .literal ",", .literal ",", .literal ";", .literal ";", .endOfInput]⟩ ∧
    ∃ before after diagnostic,
      clean "create color é\x7f^".toList = before ++ after ∧ 15 = Text.byteSize before ∧
      tryParse "create color é\x7f^" = .error diagnostic ∧ diagnostic.Founded before after ∧
      explain "create color é\x7f^" = diagnostic.report ∧ explain "create color é\x7f^" ≠ "" := by
  have rejected : Grammar.read (clean "create color é\x7f^".toList) = .error ⟨15, [.literal "name",
      .charClass "a color", .literal ",", .literal ",", .literal ";", .literal ";",
      .endOfInput]⟩ := by cbv
  exact ⟨rejected, ((explain_founded "create color é\x7f^").2 _ rejected).2⟩

end ActionString
