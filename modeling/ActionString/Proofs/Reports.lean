import ActionString.Proofs.Diagnostics
import ActionString.Proofs.Entries

/-!
# The three reports of a run

A run reports on the kept lines of its source in one of three ways: it explains the rejected lines,
it gives the actions of all lines, or it gives the actions and stops at a rejected line. The three
agree on which lines are rejected, because a line has an explanation exactly when it is rejected.
-/

namespace ActionString

/-- A line holds no newline. -/
theorem Text.newline_not_mem_of_mem_splitLines {text line : List Char}
    (member : line ∈ splitLines text) : '\n' ∉ line := by
  induction text using splitLines.induct generalizing line with
  | case1 => cases member
  | case2 rest ih =>
    obtain same | later := List.mem_cons.mp member
    · rw [same]
      exact List.not_mem_nil
    · exact ih later
  | case3 rest ih =>
    obtain same | later := List.mem_cons.mp member
    · rw [same]
      exact List.not_mem_nil
    · exact ih later
  | case4 c rest other pair last ih =>
    have plain : '\n' ≠ c := fun same => other same.symm
    rw [splitLines, last] at member
    · rw [List.mem_singleton.mp member]
      simp [plain]
    · exact other
    · exact pair
  | case5 c rest other pair first more lines ih =>
    have plain : '\n' ≠ c := fun same => other same.symm
    rw [splitLines, lines] at member
    · obtain same | later := List.mem_cons.mp member
      · have inner : '\n' ∉ first := ih (by rw [lines]; exact .head _)
        rw [same]
        simp [plain, inner]
      · exact ih (by rw [lines]; exact .tail _ later)
    · exact other
    · exact pair

/-- A kept line holds no newline. -/
theorem NumberedLine.newline_not_mem_of_mem_kept {settings : LineSettings} {source : String}
    {line : NumberedLine} (member : line ∈ kept settings source) : '\n' ∉ line.text.toList := by
  obtain ⟨⟨text, index⟩, place, rfl⟩ := List.mem_map.mp (mem_kept_iff.mp member).1
  rw [String.toList_ofList]
  exact Text.newline_not_mem_of_mem_splitLines (List.fst_mem_of_mem_zipIdx place)

/-- A source has no explanation exactly when it is accepted. -/
theorem isEmpty_explain (source : String) : (explain source).isEmpty = (tryParse source).isOk := by
  cases read : Grammar.read (clean source.toList) with
  | ok clauses =>
    rw [tryParse_of_read read, explain_of_read read]
    rfl
  | error failure =>
    rw [tryParse_of_failure read, explain_of_failure read]
    exact String.isEmpty_eq_false_iff.mpr (Diagnostic.report_ne_empty _)

/-- A rejected source has a failure. -/
theorem exists_failure {source : String} (rejected : (tryParse source).isOk = false) :
    ∃ failure, Grammar.read (clean source.toList) = .error failure := by
  cases read : Grammar.read (clean source.toList) with
  | ok clauses =>
    rw [tryParse_of_read read] at rejected
    cases rejected
  | error failure => exact ⟨failure, rfl⟩

/-- A rejected source is rejected with the diagnostic that explains it. -/
theorem exists_diagnostic {source : String} (rejected : (tryParse source).isOk = false) :
    ∃ diagnostic, tryParse source = .error diagnostic ∧ explain source = diagnostic.report := by
  obtain ⟨failure, read⟩ := exists_failure rejected
  exact ⟨_, tryParse_of_failure read, explain_of_failure read⟩

namespace Run

variable {α β ε : Type}

/-- A list is gone through when nothing fails. -/
theorem mapM_of_forall_ok {step : α → Except ε β} {value : α → β} {items : List α}
    (each : ∀ item ∈ items, step item = .ok (value item)) :
    items.mapM step = .ok (items.map value) := by
  induction items with
  | nil => rfl
  | cons item items ih =>
    rw [List.forall_mem_cons] at each
    rw [List.mapM_cons, each.1, ih each.2]
    rfl

/-- A list is given up at the first item that fails. -/
theorem mapM_of_first_error {step : α → Except ε β} {front rest : List α} {item : α} {error : ε}
    (before : ∀ item ∈ front, ∃ value, step item = .ok value) (fails : step item = .error error) :
    (front ++ item :: rest).mapM step = .error error := by
  induction front with
  | nil =>
    rw [List.nil_append, List.mapM_cons, fails]
    rfl
  | cons first front ih =>
    obtain ⟨⟨value, applies⟩, before⟩ := List.forall_mem_cons.mp before
    rw [List.cons_append, List.mapM_cons, applies, ih before]
    rfl

/-- The report on rejected lines explains them in their order. -/
theorem rejectedLines_eq (lines : List NumberedLine) :
    rejectedLines lines = (lines.filter fun line => !(tryParse line.text).isOk).map fun line =>
      rejectedLine line (explain line.text) := by
  have classified : rejectedLines lines = lines.filterMap fun line =>
      if (tryParse line.text).isOk then none else some (rejectedLine line (explain line.text)) := by
    rw [rejectedLines, List.filterMap_map]
    simp only [Function.comp_def, isEmpty_explain]
  rw [classified]
  clear classified
  induction lines with
  | nil => rfl
  | cons line lines ih =>
    cases accepted : (tryParse line.text).isOk <;> simp [accepted, ih]

/-- Outside strict runs every line is reported with what it stands for. -/
theorem reportLine_lenient (line : NumberedLine) :
    reportLine false line = .ok (parsedLine line (parse line.text)) := by
  unfold reportLine parse
  cases tryParse line.text <;> rfl

/-- An accepted line is reported with what it stands for in every run. -/
theorem reportLine_of_accepted (strict : Bool) {line : NumberedLine}
    (accepted : (tryParse line.text).isOk = true) :
    reportLine strict line = .ok (parsedLine line (parse line.text)) := by
  obtain ⟨actions, accepted⟩ := isOk_iff.mp accepted
  unfold reportLine parse
  rw [accepted]

/-- A rejected line fails a strict run. -/
theorem reportLine_of_rejected {line : NumberedLine} {diagnostic : Diagnostic}
    (rejected : tryParse line.text = .error diagnostic) :
    reportLine true line = .error (.rejected line.number diagnostic line.text) := by
  unfold reportLine
  rw [rejected]
  rfl

/-- The kept lines of a source that are rejected. -/
def rejectedOf (settings : Settings) (source : String) : List NumberedLine :=
  (NumberedLine.kept settings.lines source).filter fun line => !(tryParse line.text).isOk

/-- The reports on what the kept lines of a source stand for. -/
def actionsOf (settings : Settings) (source : String) : List Json :=
  (NumberedLine.kept settings.lines source).map fun line => parsedLine line (parse line.text)

/-- A debugging run writes the explanations of the rejected lines, be it strict or not. -/
theorem render_debug (source : String) (settings : Settings) (strict : Bool) :
    render source settings ⟨true, strict⟩ = .ok (write settings
      ((rejectedOf settings source).map fun line => rejectedLine line (explain line.text))) := by
  rw [rejectedOf, ← rejectedLines_eq]
  rfl

/-- A plain run writes what all lines stand for. -/
theorem render_plain (source : String) (settings : Settings) :
    render source settings ⟨false, false⟩ = .ok (write settings (actionsOf settings source)) := by
  have reports : parsedLines false (NumberedLine.kept settings.lines source) =
      .ok (actionsOf settings source) :=
    mapM_of_forall_ok fun line _ => reportLine_lenient line
  change (parsedLines false (NumberedLine.kept settings.lines source)).map (write settings) = _
  rw [reports]
  rfl

/-- A strict run without rejected lines writes what a plain run writes. -/
theorem render_strict_of_nil {source : String} {settings : Settings}
    (none : rejectedOf settings source = []) :
    render source settings ⟨false, true⟩ = .ok (write settings (actionsOf settings source)) := by
  have accepted : ∀ line ∈ NumberedLine.kept settings.lines source,
      (tryParse line.text).isOk = true := by
    intro line member
    have passed := List.filter_eq_nil_iff.mp none line member
    simpa using passed
  have reports : parsedLines true (NumberedLine.kept settings.lines source) =
      .ok (actionsOf settings source) :=
    mapM_of_forall_ok fun line member => reportLine_of_accepted true (accepted line member)
  change (parsedLines true (NumberedLine.kept settings.lines source)).map (write settings) = _
  rw [reports]
  rfl

/-- A strict run fails at a rejected line behind accepted ones. -/
theorem render_strict_of_append {source : String} {settings : Settings} {front : List NumberedLine}
    {first : NumberedLine} {rest : List NumberedLine} {diagnostic : Diagnostic}
    (lines : NumberedLine.kept settings.lines source = front ++ first :: rest)
    (accepted : ∀ line ∈ front, (tryParse line.text).isOk = true)
    (rejected : tryParse first.text = .error diagnostic) :
    render source settings ⟨false, true⟩ =
      .error (.rejected first.number diagnostic first.text) := by
  have before : ∀ line ∈ front, ∃ report, reportLine true line = .ok report := fun line member =>
    ⟨_, reportLine_of_accepted true (accepted line member)⟩
  have fails : parsedLines true (NumberedLine.kept settings.lines source) =
      .error (.rejected first.number diagnostic first.text) := by
    rw [lines]
    exact mapM_of_first_error before (reportLine_of_rejected rejected)
  change (parsedLines true (NumberedLine.kept settings.lines source)).map (write settings) = _
  rw [fails]
  rfl

/-- A strict run fails at the first rejected line. -/
theorem render_strict_of_cons {source : String} {settings : Settings} {first : NumberedLine}
    {others : List NumberedLine} (some : rejectedOf settings source = first :: others) :
    ∃ diagnostic, tryParse first.text = .error diagnostic ∧
      explain first.text = diagnostic.report ∧
      render source settings ⟨false, true⟩ =
        .error (.rejected first.number diagnostic first.text) := by
  obtain ⟨front, rest, lines, passed, rejected, -⟩ := List.filter_eq_cons_iff.mp some
  have accepted : ∀ line ∈ front, (tryParse line.text).isOk = true := fun line member => by
    simpa using passed line member
  obtain ⟨diagnostic, error, explained⟩ := exists_diagnostic (by simpa using rejected)
  exact ⟨diagnostic, error, explained, render_strict_of_append lines accepted error⟩

end Run

end ActionString
