import ActionString.Proofs.Reports

/-!
# Labels of rejected lines

The failure of a strict run labels a place of the rejected line. The place is counted in the cleaned
line, and there the label covers exactly the character that the message names, or stands at the end.
The line that is shown with the label is the uncleaned one, so the label is right for it when it has
no stray controls and may miss the place when it has some.
-/

namespace ActionString

/-- The label of a notice points into a text: at the one character that the message complains about,
or at the end of the text when the complaint is about the end. -/
def Notice.PointsInto (text : List Char) (notice : Notice) : Prop :=
  ∃ before place after label, text = before ++ place ++ after ∧ notice.labels = some [label] ∧
    label.span.start = Text.byteSize before ∧ label.span.length = Text.byteSize place ∧
    ((∃ c, place = [c] ∧ notice.code = some "E100" ∧
        notice.message = (Complaint.unexpected c).message) ∨
      (place = [] ∧ after = [] ∧ notice.code = some "E101"))

/-- The notice of a rejected line points into the text that its diagnostic is made for. -/
theorem Notice.pointsInto_of_place (line : Nat) (source : String) (before after : List Char)
    (expected : List Expected) :
    (Failure.rejected line (Diagnostic.atOffset (before ++ after) (Text.byteSize before) expected)
      source).notice.PointsInto (before ++ after) := by
  have start := Diagnostic.span_start_atOffset before after expected
  have length := Diagnostic.span_length_atOffset before after expected
  have complaint := Diagnostic.complaint_atOffset before after expected
  cases after with
  | nil =>
    refine ⟨before, [], [], _, by simp, rfl, start, length, .inr ⟨rfl, rfl, ?_⟩⟩
    simp only [Failure.notice, complaint]
    rfl
  | cons c rest =>
    refine ⟨before, [c], rest, _, by simp, rfl, start, length, .inl ⟨c, rfl, ?_, ?_⟩⟩
    · simp only [Failure.notice, complaint]
      rfl
    · simp only [Failure.notice, complaint]
      rfl

/-- Where a label points into a text, the message names the character at its start. -/
theorem Notice.PointsInto.message_eq {text rest : List Char} {notice : Notice} {label : Label}
    {c : Char} (points : notice.PointsInto text) (labels : notice.labels = some [label])
    (front : (Text.splitAtByte label.span.start text).2 = c :: rest) :
    notice.message = (Complaint.unexpected c).message := by
  obtain ⟨before, place, after, other, whole, same, start, -, named⟩ := points
  rw [labels] at same
  cases same
  rw [whole, start, List.append_assoc, Text.splitAtByte_byteSize] at front
  obtain ⟨first, rfl, -, message⟩ | ⟨rfl, rfl, -⟩ := named
  · cases front
    exact message
  · cases front

/-- The diagnostic of a rejected source is made for a place of the cleaned source. -/
theorem exists_place_of_rejected {source : String} {diagnostic : Diagnostic}
    (rejected : tryParse source = .error diagnostic) :
    ∃ before after expected, clean source.toList = before ++ after ∧
      diagnostic = Diagnostic.atOffset (before ++ after) (Text.byteSize before) expected := by
  obtain ⟨failure, read⟩ := exists_failure (by rw [rejected]; rfl : (tryParse source).isOk = false)
  obtain ⟨before, after, whole, offset, -⟩ := Grammar.exists_place_of_read_error read
  rw [tryParse_of_failure read] at rejected
  cases rejected
  refine ⟨before, after, failure.expected, whole, ?_⟩
  rw [Grammar.Failure.diagnostic, whole, offset]

namespace Run

/-- Only a rejected line fails a report. -/
theorem exists_rejected_of_render {source : String} {settings : Settings} {options : Options}
    {failure : Failure} (fails : render source settings options = .error failure) :
    ∃ line ∈ NumberedLine.kept settings.lines source, ∃ diagnostic,
      tryParse line.text = .error diagnostic ∧
      failure = .rejected line.number diagnostic line.text := by
  obtain ⟨debug, strict⟩ := options
  match debug, strict with
  | true, strict =>
    rw [render_debug] at fails
    cases fails
  | false, false =>
    rw [render_plain] at fails
    cases fails
  | false, true =>
    cases lines : rejectedOf settings source with
    | nil =>
      rw [render_strict_of_nil lines] at fails
      cases fails
    | cons first others =>
      obtain ⟨diagnostic, rejected, -, error⟩ := render_strict_of_cons lines
      rw [error] at fails
      cases fails
      have member : first ∈ rejectedOf settings source := by
        rw [lines]
        exact .head _
      exact ⟨first, List.mem_of_mem_filter member, diagnostic, rejected, rfl⟩

/-- The label of a rejected line points into the cleaned line, and into the line that is shown with
it when that has no stray controls. -/
theorem pointsInto_of_render {source : String} {settings : Settings} {options : Options}
    {failure : Failure} (fails : render source settings options = .error failure) :
    ∃ line ∈ NumberedLine.kept settings.lines source,
      failure.notice.source = some line.text ∧
      failure.notice.PointsInto (clean line.text.toList) ∧
      ((∀ c ∈ line.text.toList, isStray c = false) →
        failure.notice.PointsInto line.text.toList) := by
  obtain ⟨line, kept, diagnostic, rejected, rfl⟩ := exists_rejected_of_render fails
  obtain ⟨before, after, expected, whole, rfl⟩ := exists_place_of_rejected rejected
  have points := Notice.pointsInto_of_place line.number line.text before after expected
  refine ⟨line, kept, rfl, ?_, fun tidy => ?_⟩
  · rw [whole]
    exact points
  · rw [clean_of_forall tidy] at whole
    rw [whole]
    exact points

set_option maxRecDepth 100000 in
/-- The caret behind an accented colour is labelled as the character that it is. -/
theorem pointsInto_of_render_caret :
    ∃ failure, render "create color é^" {} ⟨false, true⟩ = .error failure ∧
      failure.notice.PointsInto "create color é^".toList := by
  have kept : NumberedLine.kept ({} : Settings).lines "create color é^" =
      [] ++ [⟨1, "create color é^"⟩] := by cbv
  have read : Grammar.read (clean "create color é^".toList) = .error ⟨15, [.literal "name",
      .charClass "a color", .literal ",", .literal ",", .literal ";", .literal ";",
      .endOfInput]⟩ := by cbv
  have error := tryParse_of_failure read
  have fails := render_strict_of_append kept (List.forall_mem_nil _) error
  obtain ⟨line, member, -, -, points⟩ := pointsInto_of_render fails
  rw [kept, List.nil_append, List.mem_singleton] at member
  rw [member] at points
  have tidy : ("create color é^".toList.all fun c => !isStray c) = true := by decide
  exact ⟨_, fails, points (by simpa using tidy)⟩

set_option maxRecDepth 100000 in
/-- A stray control before the place moves the label off the place in the line that is shown. -/
theorem not_pointsInto_of_stray :
    ∃ failure, render "create\x7f examine ^" {} ⟨false, true⟩ = .error failure ∧
      failure.notice.source = some "create\x7f examine ^" ∧
      ¬failure.notice.PointsInto "create\x7f examine ^".toList := by
  let place : Grammar.Failure :=
    ⟨15, [.literal ",", .literal ",", .literal ";", .literal ";", .endOfInput]⟩
  have read : Grammar.read (clean "create\x7f examine ^".toList) = .error place := by cbv
  have start : (place.diagnostic (clean "create\x7f examine ^".toList)).span.start = 15 := by cbv
  have complaint : (place.diagnostic (clean "create\x7f examine ^".toList)).complaint =
      .unexpected '^' := by cbv
  have kept : NumberedLine.kept ({} : Settings).lines "create\x7f examine ^" =
      [] ++ [⟨1, "create\x7f examine ^"⟩] := by cbv
  have error := tryParse_of_failure read
  have fails := render_strict_of_append kept (List.forall_mem_nil _) error
  generalize place.diagnostic (clean "create\x7f examine ^".toList) = diagnostic at *
  refine ⟨_, fails, rfl, fun points => ?_⟩
  -- The byte of the label holds the space before the caret, which the message does not name.
  have front : (Text.splitAtByte diagnostic.span.start "create\x7f examine ^".toList).2 =
      [' ', '^'] := by
    rw [start]
    cbv
  have message : diagnostic.complaint.message = (Complaint.unexpected ' ').message :=
    points.message_eq rfl front
  rw [complaint] at message
  revert message
  decide

end Run

end ActionString
