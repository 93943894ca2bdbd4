import ActionString.Parse
import ActionString.Proofs.Separated
import Mathlib.Data.List.TakeWhile

/-!
# Accepted texts

A text is accepted when it is a list of clauses up to a closing: spaces, perhaps with one semicolon
among them. Reading a source is reading its cleaned text, and cleaning changes only sources with
stray controls.
-/

namespace ActionString

namespace Grammar

open Rule

/-- Whether a text consists of spaces. -/
def blank (text : List Char) : Bool := text.all isSpace

@[simp] theorem blank_nil : blank [] = true := rfl

/-- Stripping leaves nothing of a blank text, and something of any other. -/
theorem strip_eq_nil_iff {text : List Char} : strip text = [] ↔ blank text = true := by
  rw [strip, List.dropWhile_eq_nil_iff, blank, List.all_eq_true]

/-- A text that is not blank begins, after spaces, with a character that is no space. -/
theorem exists_strip_eq_cons {text : List Char} (solid : blank text = false) :
    ∃ c rest, strip text = c :: rest ∧ isSpace c = false := by
  cases stripped : strip text with
  | nil => rw [strip_eq_nil_iff, solid] at stripped; cases stripped
  | cons c rest => exact ⟨c, rest, rfl, isSpace_of_strip stripped⟩

/-- Spaces before a text are stripped with the spaces of the text. -/
theorem strip_append_of_blank {front : List Char} (spaces : blank front = true)
    (text : List Char) : strip (front ++ text) = strip text := by
  rw [blank, List.all_eq_true] at spaces
  exact List.dropWhile_append_of_pos spaces

/-- In front of more text, a text that is not blank is stripped as by itself. -/
theorem strip_append_of_not_blank {front : List Char} (solid : blank front = false)
    (text : List Char) : strip (front ++ text) = strip front ++ text := by
  obtain ⟨c, rest, stripped, -⟩ := exists_strip_eq_cons solid
  rw [strip] at stripped ⊢
  rw [strip, List.dropWhile_append, stripped]
  rfl

/-- A text closes a list of clauses when it is blank but perhaps for one semicolon. -/
def Closes (text : List Char) : Prop :=
  blank text = true ∨ ∃ rest, strip text = ';' :: rest ∧ blank rest = true

/-- The end of the text is found, after spaces, in blank texts only. -/
theorem result_endOfInput_strip (text : List Char) :
    (endOfInput (strip text)).result = if blank text = true then some ((), []) else none := by
  cases stripped : strip text with
  | nil => simp [endOfInput, expecting, strip_eq_nil_iff.mp stripped]
  | cons c rest =>
    have solid : blank text = false := by
      rw [Bool.eq_false_iff, Ne, ← strip_eq_nil_iff, stripped]
      exact List.cons_ne_nil _ _
    simp [endOfInput, expecting, solid]

/-- What comes after the clauses of a whole text. -/
def closing {α : Type} (value : α) : Rule α :=
  spacedOptional (literal ";") >>= fun _ => spaces >>= fun _ => endOfInput >>= fun _ => pure value

/-- A closing is read to the end. -/
theorem result_closing_of_closes {α : Type} (value : α) {text : List Char}
    (closes : Closes text) : (closing value text).result = some (value, []) := by
  have single : (";" : String).toList = [';'] := rfl
  obtain ended | ⟨rest, stripped, ended⟩ := closes
  · have missed : (literal ";" (strip text)).result = none :=
      result_literal_of_ne single (by rw [strip_eq_nil_iff.mpr ended]; simp)
    simp [closing, result_bind, spacedOptional, result_optional, missed,
      result_endOfInput_strip, ended]
  · simp [closing, result_bind, spacedOptional, result_optional, stripped,
      result_literal_self single, result_endOfInput_strip, ended]

/-- What is no closing is not read as one. -/
theorem result_closing_of_not_closes {α : Type} (value : α) {text : List Char}
    (closes : ¬Closes text) : (closing value text).result = none := by
  have single : (";" : String).toList = [';'] := rfl
  rw [Closes, not_or] at closes
  by_cases front : (strip text).head? = some ';'
  · obtain ⟨rest, stripped⟩ := List.head?_eq_some_iff.mp front
    have solid : ¬blank rest = true := fun ended => closes.2 ⟨rest, stripped, ended⟩
    simp [closing, result_bind, spacedOptional, result_optional, stripped,
      result_literal_self single, result_endOfInput_strip, solid]
  · have missed := result_literal_of_ne single front
    simp [closing, result_bind, spacedOptional, result_optional, missed,
      result_endOfInput_strip, closes.1]

/-- The rule for a whole text applies to a list of clauses with its closing. -/
theorem result_clauses_eq_some_iff {text last : List Char} {found : List Clause} :
    (clauses text).result = some (found, last) ↔
      last = [] ∧ ∃ rest, (separated ";" clause text).result = some (found, rest) ∧
        Closes rest := by
  change ((separated ";" clause >>= closing) text).result = _ ↔ _
  rw [result_bind, Option.bind_eq_some_iff]
  constructor
  · rintro ⟨⟨value, rest⟩, list, closed⟩
    by_cases closes : Closes rest
    · rw [result_closing_of_closes value closes] at closed
      cases closed
      exact ⟨rfl, rest, list, closes⟩
    · rw [result_closing_of_not_closes value closes] at closed
      cases closed
  · rintro ⟨rfl, rest, list, closes⟩
    exact ⟨(found, rest), list, result_closing_of_closes found closes⟩

/-- A text is read when its clauses are followed by a closing. -/
theorem read_eq_ok_iff {text : List Char} {found : List Clause} :
    read text = .ok found ↔
      ∃ rest, (separated ";" clause text).result = some (found, rest) ∧ Closes rest := by
  unfold read
  dsimp only
  split
  · rename_i value last result
    obtain ⟨-, rest, list, closes⟩ := result_clauses_eq_some_iff.mp result
    constructor
    · intro same
      cases same
      exact ⟨rest, list, closes⟩
    · rintro ⟨other, listOther, -⟩
      rw [list] at listOther
      cases listOther
      rfl
  · rename_i missed
    constructor
    · intro same
      cases same
    · rintro ⟨rest, list, closes⟩
      have result := result_clauses_eq_some_iff.mpr ⟨rfl, rest, list, closes⟩
      rw [missed] at result
      cases result

/-- A text is rejected when its list of clauses is not followed by a closing. -/
theorem read_ne_ok {text rest : List Char} {values : List Clause}
    (list : (separated ";" clause text).result = some (values, rest)) (left : ¬Closes rest)
    (found : List Clause) : read text ≠ .ok found := by
  intro accepted
  obtain ⟨last, result, closes⟩ := read_eq_ok_iff.mp accepted
  rw [list] at result
  cases result
  exact left closes

end Grammar

/-- A letter is not removed before reading. -/
theorem isStray_of_isAlpha {c : Char} (letter : c.toLower.isAlpha = true) : isStray c = false := by
  rw [Bool.eq_false_iff]
  intro stray
  rw [isStray, Bool.or_eq_true, decide_eq_true_eq, decide_eq_true_eq] at stray
  obtain rfl | rfl := stray
  · revert letter
    decide
  · revert letter
    decide

/-- A text without stray controls is clean. -/
theorem clean_of_forall {text : List Char} (tidy : ∀ c ∈ text, isStray c = false) :
    clean text = text :=
  List.filter_eq_self.mpr fun c member => by simp [tidy c member]

/-- Cleaning a text cleans its parts. -/
theorem clean_append (first second : List Char) :
    clean (first ++ second) = clean first ++ clean second := List.filter_append ..

/-- A source is read as the clauses of its cleaned text. -/
theorem parseRaw_eq_ok_iff {source : String} {actions : List RawAction} :
    parseRaw source = .ok actions ↔
      ∃ clauses, Grammar.read (clean source.toList) = .ok clauses ∧
        actions = clauses.map Clause.rawAction := by
  unfold parseRaw
  dsimp only
  cases Grammar.read (clean source.toList) <;> simp [eq_comm]

/-- Merging does not reject what was read. -/
theorem isOk_tryParse (source : String) : (tryParse source).isOk = (parseRaw source).isOk := by
  unfold tryParse
  cases parseRaw source <;> rfl

/-- A source stands for its merged actions, or for none when it is rejected. -/
theorem parse_eq (source : String) :
    parse source = match parseRaw source with
      | .ok actions => mergeActions actions
      | .error _ => ∅ := by
  unfold parse tryParse
  generalize parseRaw source = result
  cases result with
  | ok actions => exact Eq.refl (mergeActions actions)
  | error diagnostic => rfl

/-- A rejected source stands for no action. -/
theorem parse_of_rejected {source : String} (rejected : (tryParse source).isOk = false) :
    parse source = ∅ := by
  unfold parse
  cases result : tryParse source with
  | ok map =>
    rw [result] at rejected
    cases rejected
  | error diagnostic => rfl

/-- A result is there when it is one. -/
theorem isOk_iff {ε α : Type} {result : Except ε α} :
    result.isOk = true ↔ ∃ value, result = .ok value := by
  cases result <;> simp [Except.isOk, Except.toBool]

/-- A source is accepted when its cleaned text is read. -/
theorem isOk_parseRaw_iff {source : String} :
    (parseRaw source).isOk = true ↔ ∃ clauses, Grammar.read (clean source.toList) = .ok clauses := by
  rw [isOk_iff]
  constructor
  · rintro ⟨actions, accepted⟩
    obtain ⟨clauses, read, -⟩ := parseRaw_eq_ok_iff.mp accepted
    exact ⟨clauses, read⟩
  · rintro ⟨clauses, read⟩
    exact ⟨_, parseRaw_eq_ok_iff.mpr ⟨clauses, read, rfl⟩⟩

end ActionString
