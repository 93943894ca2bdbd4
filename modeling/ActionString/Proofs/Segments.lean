import ActionString.Proofs.BlindRules
import ActionString.Proofs.Reading
import Mathlib.Data.List.Forall2

/-!
# Segments between semicolons

Without quotes, a source is a list of segments between semicolons. Each segment that is not blank
must be a clause by itself, and blank segments between two clauses do not matter; before the first
clause there can be none, and after the last at most one.
-/

namespace ActionString

namespace Grammar

open Rule

/-- A character of a text that can be cut at its semicolons. -/
def Unquoted (c : Char) : Prop := c ≠ '\x22'

/-- Segments, each after a semicolon. -/
def afterSemicolons : List (List Char) → List Char
  | [] => []
  | segment :: segments => ';' :: segment ++ afterSemicolons segments

/-- Segments after semicolons begin with a semicolon. -/
theorem at_afterSemicolons (segments : List (List Char)) :
    Stops.semicolon.At (afterSemicolons segments) := by
  cases segments with
  | nil => exact Stops.at_nil
  | cons segment segments => exact Stops.at_cons (by decide) _

/-- A text is its first segment with the others after semicolons. -/
theorem intercalate_eq_append (segment : List Char) (segments : List (List Char)) :
    [';'].intercalate (segment :: segments) = segment ++ afterSemicolons segments := by
  induction segments generalizing segment with
  | nil => simp [afterSemicolons, List.intercalate_singleton]
  | cons next segments ih => simp [List.intercalate_cons_cons, ih, afterSemicolons]

/-- A segment without semicolons and quotes. -/
def Plain (segment : List Char) : Prop := ∀ c ∈ segment, Unquoted c ∧ c ≠ ';'

/-- A segment is a clause when one is read from it, up to spaces. -/
def IsClause (segment : List Char) (found : Clause) : Prop :=
  ∃ rest, (clause (strip segment)).result = some (found, rest) ∧ blank rest = true

/-- A plain text does not go on with a semicolon after its spaces, unless it is blank. -/
theorem head?_strip_ne {segment : List Char} (plain : Plain segment)
    (solid : blank segment = false) (tail : List Char) :
    (strip (segment ++ tail)).head? ≠ some ';' := by
  rw [strip_append_of_not_blank solid]
  obtain ⟨c, rest, stripped, -⟩ := exists_strip_eq_cons solid
  have member : c ∈ segment := (strip_suffix segment).subset (by rw [stripped]; exact .head _)
  rw [stripped]
  intro same
  exact (plain c member).2 (Option.some.inj same)

/-- A solid plain text closes nothing. -/
theorem not_closes {segment : List Char} (plain : Plain segment) (solid : blank segment = false)
    (tail : List Char) : ¬Closes (segment ++ tail) := by
  rintro (ended | ⟨rest, stripped, -⟩)
  · rw [blank, List.all_append, Bool.and_eq_true] at ended
    rw [blank, ended.1] at solid
    cases solid
  · exact head?_strip_ne plain solid tail (by rw [stripped]; rfl)

/-- Blank segments are passed over. -/
theorem passOver_blanks {segments : List (List Char)} (blanks : ∀ s ∈ segments, blank s = true)
    {front : List Char} (spaces : blank front = true) (more : List (List Char)) :
    passOver ';' (front ++ afterSemicolons (segments ++ more)) =
      passOver ';' (afterSemicolons more) := by
  have pass (before : List Char) (ended : blank before = true) (text : List Char) :
      passOver ';' (before ++ text) = passOver ';' text := by
    rw [← passOver_strip, strip_append_of_blank ended, passOver_strip]
  rw [pass front spaces]
  induction segments with
  | nil => rfl
  | cons segment segments ih =>
    rw [List.forall_mem_cons] at blanks
    rw [List.cons_append, afterSemicolons, List.cons_append, passOver_cons, pass _ blanks.1,
      ih blanks.2]

/-- Passing over separators stops at a solid segment. -/
theorem passOver_solid {segment : List Char} (plain : Plain segment)
    (solid : blank segment = false) (more : List (List Char)) :
    passOver ';' (afterSemicolons (segment :: more)) = strip segment ++ afterSemicolons more := by
  obtain ⟨c, rest, stripped, solidFirst⟩ := exists_strip_eq_cons solid
  have member : c ∈ segment := (strip_suffix segment).subset (by rw [stripped]; exact .head _)
  rw [afterSemicolons, List.cons_append, passOver_cons, ← passOver_strip,
    strip_append_of_not_blank solid, stripped, List.cons_append,
    passOver_of_solid solidFirst (plain c member).2]

/-- A clause is read from a segment as it is from the text that goes on after the segment. -/
theorem clause_append {segment : List Char} (plain : Plain segment)
    (more : List (List Char)) :
    (clause (strip segment ++ afterSemicolons more)).result =
      (clause (strip segment)).result.map fun found =>
        (found.1, found.2 ++ afterSemicolons more) := by
  have calm : ∀ c ∈ strip segment, Unquoted c := fun c member =>
    (plain c ((strip_suffix segment).subset member)).1
  exact result_clause_append calm (at_afterSemicolons more)

/-- Whether segments may stand after a clause: those that are not blank are clauses, and at most
one blank segment comes after the last of them. -/
def MayFollow (segments : List (List Char)) : Prop :=
  (∀ s ∈ segments, blank s = false → ∃ found, IsClause s found) ∧
    (segments.reverse.takeWhile blank).length ≤ 1

/-- Blank segments may follow a clause when there is at most one of them. -/
theorem mayFollow_iff_of_blanks {segments : List (List Char)}
    (blanks : ∀ s ∈ segments, blank s = true) : MayFollow segments ↔ segments.length ≤ 1 := by
  have all : segments.reverse.takeWhile blank = segments.reverse :=
    List.takeWhile_eq_self_iff.mpr fun s member => blanks s (List.mem_reverse.mp member)
  rw [MayFollow, all, List.length_reverse]
  constructor
  · exact And.right
  · intro few
    refine ⟨fun s member solid => ?_, few⟩
    rw [blanks s member] at solid
    cases solid

/-- The blank segments at the end are those behind the last segment that is not blank. -/
theorem length_takeWhile_blank (blanks : List (List Char)) {segment : List Char}
    (solid : blank segment = false) (more : List (List Char)) :
    ((blanks ++ segment :: more).reverse.takeWhile blank).length =
      (more.reverse.takeWhile blank).length := by
  rw [List.reverse_append, List.reverse_cons, List.append_assoc, List.takeWhile_append]
  split
  · simp [*]
  · rfl

/-- Blank segments before a clause do not matter. -/
theorem mayFollow_append_iff {blanks : List (List Char)} {segment : List Char}
    (spaces : ∀ s ∈ blanks, blank s = true) (solid : blank segment = false)
    (more : List (List Char)) :
    MayFollow (blanks ++ segment :: more) ↔
      (∃ found, IsClause segment found) ∧ MayFollow more := by
  rw [MayFollow, MayFollow, length_takeWhile_blank blanks solid, ← and_assoc]
  refine and_congr_left fun _ => ?_
  rw [List.forall_mem_append, List.forall_mem_cons]
  constructor
  · rintro ⟨-, first, others⟩
    exact ⟨first solid, others⟩
  · rintro ⟨first, others⟩
    refine ⟨fun s member hollow => ?_, fun _ => first, others⟩
    rw [spaces s member] at hollow
    cases hollow

/-- Segments after semicolons begin, after spaces, with a semicolon if there are any. -/
theorem strip_afterSemicolons {front : List Char} (spaces : blank front = true)
    (segment : List Char) (segments : List (List Char)) :
    strip (front ++ afterSemicolons (segment :: segments)) =
      ';' :: segment ++ afterSemicolons segments := by
  rw [strip_append_of_blank spaces, afterSemicolons, List.cons_append,
    strip_cons_of_not (by decide)]

/-- A text with a semicolon is not blank. -/
theorem blank_append_semicolon (before after : List Char) :
    blank (before ++ ';' :: after) = false := by
  rw [Bool.eq_false_iff, Ne, blank, List.all_eq_true]
  exact fun all => absurd (all ';' (by simp)) (by decide)

/-- Segments after a clause close the list when there is at most one, and it is blank. -/
theorem closes_afterSemicolons_iff {front : List Char} (spaces : blank front = true)
    (segments : List (List Char)) :
    Closes (front ++ afterSemicolons segments) ↔
      (∀ s ∈ segments, blank s = true) ∧ segments.length ≤ 1 := by
  match segments with
  | [] => simp [afterSemicolons, Closes, spaces]
  | [segment] =>
    have mixed := blank_append_semicolon front (segment ++ [])
    simp only [Closes, strip_afterSemicolons spaces]
    simp only [afterSemicolons, List.cons_append, mixed]
    simp
  | first :: second :: segments =>
    refine iff_of_false ?_ (by simp)
    have mixed := blank_append_semicolon first (second ++ afterSemicolons segments)
    rintro (ended | ⟨rest, stripped, ended⟩)
    · rw [afterSemicolons, List.cons_append, blank_append_semicolon] at ended
      cases ended
    · rw [strip_afterSemicolons spaces, List.cons_append, List.cons.injEq] at stripped
      rw [← stripped.2, afterSemicolons, List.cons_append, mixed] at ended
      cases ended

/-! ### Segments that are no clauses -/

/-- A segment that no clause is read from is none. -/
theorem not_isClause_of_none {segment : List Char}
    (missed : (clause (strip segment)).result = none) : ¬∃ found, IsClause segment found := by
  rintro ⟨found, rest, read, -⟩
  rw [missed] at read
  cases read

/-- A segment that a clause is read from is one when only spaces are left of it. -/
theorem exists_isClause_iff {segment rest : List Char} {value : Clause}
    (read : (clause (strip segment)).result = some (value, rest)) :
    (∃ found, IsClause segment found) ↔ blank rest = true := by
  constructor
  · rintro ⟨found, last, same, ended⟩
    rw [read] at same
    cases same
    exact ended
  · exact fun ended => ⟨value, rest, read, ended⟩

/-- What a clause leaves of a plain segment, if it is more than spaces, ends the list of clauses and
does not close it. -/
theorem followers_remainder {segment rest : List Char} {value : Clause} (plain : Plain segment)
    (read : (clause (strip segment)).result = some (value, rest)) (solid : blank rest = false)
    (more : List (List Char)) :
    (followers ";" clause (rest ++ afterSemicolons more)).result =
        some ([], rest ++ afterSemicolons more) ∧
      ¬Closes (rest ++ afterSemicolons more) := by
  have plainRest : Plain rest := fun c member => plain c
    ((strip_suffix segment).subset ((Forward.suffix read).subset member))
  exact ⟨result_followers_of_ne rfl clause (head?_strip_ne plainRest solid _),
    not_closes plainRest solid _⟩

/-! ### Segments after a clause -/

/-- Clauses that are read from segments after a clause, up to a place. The list can end there
exactly when the segments may follow, and then these are the clauses of the segments that are not
blank. -/
structure ReadsUpTo (segments : List (List Char)) (found : List Clause) (rest : List Char) :
    Prop where
  closes_iff : Closes rest ↔ MayFollow segments
  clauses : Closes rest → List.Forall₂ IsClause (segments.filter fun s => !blank s) found

/-- Segments that may not follow are not read to the end. -/
theorem ReadsUpTo.of_not {segments : List (List Char)} {rest : List Char} (never : ¬Closes rest)
    (other : ¬MayFollow segments) (found : List Clause) : ReadsUpTo segments found rest :=
  ⟨iff_of_false never other, fun closes => absurd closes never⟩

/-- From blank segments nothing is read. -/
theorem followers_blanks {segments : List (List Char)} (blanks : ∀ s ∈ segments, blank s = true)
    {front : List Char} (spaces : blank front = true) :
    (followers ";" clause (front ++ afterSemicolons segments)).result =
        some ([], front ++ afterSemicolons segments) ∧
      ReadsUpTo segments [] (front ++ afterSemicolons segments) := by
  have passed := passOver_blanks blanks spaces []
  rw [List.append_nil] at passed
  have missed : (clause (passOver ';' (front ++ afterSemicolons segments))).result = none := by
    rw [passed]
    rfl
  have hollow : segments.filter (fun s => !blank s) = [] :=
    List.filter_eq_nil_iff.mpr fun s member => by simp [blanks s member]
  refine ⟨result_followers_of_none rfl missed, ?_, fun _ => ?_⟩
  · rw [closes_afterSemicolons_iff spaces, mayFollow_iff_of_blanks blanks]
    exact and_iff_right blanks
  · rw [hollow]
    exact .nil

section SolidSegment

variable {front segment : List Char} {blanks : List (List Char)}

/-- The next clause is read from the first segment that is not blank. -/
theorem clause_passOver (spaces : blank front = true) (hollow : ∀ s ∈ blanks, blank s = true)
    (plain : Plain segment) (solid : blank segment = false) (more : List (List Char)) :
    (clause (passOver ';' (front ++ afterSemicolons (blanks ++ segment :: more)))).result =
      (clause (strip segment)).result.map fun found =>
        (found.1, found.2 ++ afterSemicolons more) := by
  rw [passOver_blanks hollow spaces, passOver_solid plain solid, clause_append plain]

/-- Where no clause is read from the first segment that is not blank, reading ends before the
segments. -/
theorem followers_of_none_in_segment (spaces : blank front = true)
    (hollow : ∀ s ∈ blanks, blank s = true) (plain : Plain segment)
    (solid : blank segment = false) (missed : (clause (strip segment)).result = none)
    (more : List (List Char)) :
    (followers ";" clause (front ++ afterSemicolons (blanks ++ segment :: more))).result =
        some ([], front ++ afterSemicolons (blanks ++ segment :: more)) ∧
      ReadsUpTo (blanks ++ segment :: more) []
        (front ++ afterSemicolons (blanks ++ segment :: more)) := by
  have next := clause_passOver spaces hollow plain solid more
  rw [missed] at next
  refine ⟨result_followers_of_none rfl next, .of_not ?_ ?_ []⟩
  · rw [closes_afterSemicolons_iff spaces]
    intro all
    rw [all.1 segment (by simp)] at solid
    cases solid
  · rw [mayFollow_append_iff hollow solid]
    exact fun may => not_isClause_of_none missed may.1

/-- Where a clause is read from the first segment that is not blank, reading goes on behind it. -/
theorem followers_of_some_in_segment (spaces : blank front = true)
    (hollow : ∀ s ∈ blanks, blank s = true) (plain : Plain segment)
    (solid : blank segment = false) {value : Clause} {rest : List Char}
    (read : (clause (strip segment)).result = some (value, rest)) (more : List (List Char)) :
    (followers ";" clause (front ++ afterSemicolons (blanks ++ segment :: more))).result =
      (followers ";" clause (rest ++ afterSemicolons more)).result.map fun others =>
        (value :: others.1, others.2) := by
  have next := clause_passOver spaces hollow plain solid more
  rw [read] at next
  have head : (strip (front ++ afterSemicolons (blanks ++ segment :: more))).head? = some ';' := by
    cases blanks <;> exact congrArg List.head? (strip_afterSemicolons spaces ..)
  exact result_followers_of_some rfl head next

/-- A segment that is a clause is read before what is read from the segments after it. -/
theorem ReadsUpTo.cons {more : List (List Char)} {value : Clause} {others : List Clause}
    {last : List Char} (later : ReadsUpTo more others last) (hollow : ∀ s ∈ blanks, blank s = true)
    (solid : blank segment = false) (first : IsClause segment value) :
    ReadsUpTo (blanks ++ segment :: more) (value :: others) last := by
  have nothing : blanks.filter (fun s => !blank s) = [] :=
    List.filter_eq_nil_iff.mpr fun s member => by simp [hollow s member]
  refine ⟨?_, fun closes => ?_⟩
  · rw [later.closes_iff, mayFollow_append_iff hollow solid]
    exact (and_iff_right ⟨value, first⟩).symm
  · rw [List.filter_append, nothing, List.filter_cons_of_pos (by simp [solid])]
    exact .cons first (later.clauses closes)

end SolidSegment

/-- After a clause, the clauses of the segments are read up to a closing exactly when the segments
may follow. -/
theorem followers_afterSemicolons (segments : List (List Char))
    (plain : ∀ s ∈ segments, Plain s) {front : List Char} (spaces : blank front = true) :
    ∃ found rest,
      (followers ";" clause (front ++ afterSemicolons segments)).result = some (found, rest) ∧
        ReadsUpTo segments found rest := by
  -- Each round reads the blank segments up to a solid one, and that one.
  induction length : segments.length using Nat.strong_induction_on generalizing segments front with
  | _ size ih =>
    subst length
    have split := List.takeWhile_append_dropWhile (p := blank) (l := segments)
    have hollow : ∀ s ∈ segments.takeWhile blank, blank s = true := fun s member =>
      List.mem_takeWhile_imp member
    cases after : segments.dropWhile blank with
    | nil =>
      rw [after, List.append_nil] at split
      rw [split] at hollow
      exact ⟨[], _, followers_blanks hollow spaces⟩
    | cons segment more =>
      have solid : blank segment = false := by
        have never := List.head?_dropWhile_not blank segments
        rw [after] at never
        simpa using never
      rw [after] at split
      have plainSegment : Plain segment := plain segment (by rw [← split]; simp)
      have plainMore : ∀ s ∈ more, Plain s := fun s member =>
        plain s (by rw [← split]; simp [member])
      have shorter : more.length < segments.length := by
        rw [← split, List.length_append, List.length_cons]
        omega
      rw [← split]
      cases read : (clause (strip segment)).result with
      | none =>
        exact ⟨[], _, followers_of_none_in_segment spaces hollow plainSegment solid read more⟩
      | some pair =>
        obtain ⟨value, rest⟩ := pair
        rw [followers_of_some_in_segment spaces hollow plainSegment solid read]
        cases ended : blank rest with
        | true =>
          obtain ⟨others, last, result, later⟩ := ih _ shorter more plainMore ended rfl
          exact ⟨value :: others, last, by rw [result]; rfl,
            later.cons hollow solid ⟨rest, read, ended⟩⟩
        | false =>
          obtain ⟨result, never⟩ := followers_remainder plainSegment read ended more
          refine ⟨[value], _, by rw [result]; rfl, .of_not never ?_ _⟩
          rw [mayFollow_append_iff hollow solid, exists_isClause_iff read, ended]
          exact fun may => absurd may.1 (by decide)

/-- A first segment and segments after it are read together when the first is a clause and the
others may follow it; what is read are the clauses of the segments that are not blank. -/
theorem read_segments {segment : List Char} (plainSegment : Plain segment)
    (solid : blank segment = false) {segments : List (List Char)}
    (plain : ∀ s ∈ segments, Plain s) :
    ((∃ found, read (segment ++ afterSemicolons segments) = .ok found) ↔
        (∃ found, IsClause segment found) ∧ MayFollow segments) ∧
      ∀ found, read (segment ++ afterSemicolons segments) = .ok found →
        List.Forall₂ IsClause (segment :: segments.filter fun s => !blank s) found := by
  have appended := clause_append plainSegment segments
  rw [← strip_append_of_not_blank solid (afterSemicolons segments)] at appended
  -- What the list of clauses leaves does not close it unless the first segment is a clause.
  have rejected {values : List Clause} {last : List Char}
      (list : (separated ";" clause (segment ++ afterSemicolons segments)).result =
        some (values, last)) (never : ¬Closes last) (found : List Clause) :
      read (segment ++ afterSemicolons segments) ≠ .ok found := by
    rw [Ne, read_eq_ok_iff]
    rintro ⟨rest, same, closes⟩
    rw [list] at same
    cases same
    exact never closes
  cases result : (clause (strip segment)).result with
  | none =>
    rw [result] at appended
    have never := rejected (result_separated_of_none appended) (not_closes plainSegment solid _)
    exact ⟨iff_of_false (fun ⟨found, same⟩ => never found same) fun both =>
      not_isClause_of_none result both.1, fun found same => absurd same (never found)⟩
  | some pair =>
    obtain ⟨value, rest⟩ := pair
    rw [result] at appended
    have list : (separated ";" clause _).result = _ := result_separated_of_some appended
    cases ended : blank rest with
    | true =>
      obtain ⟨others, last, more, up⟩ := followers_afterSemicolons segments plain ended
      rw [more] at list
      have accepted (found : List Clause) :
          read (segment ++ afterSemicolons segments) = .ok found ↔
            found = value :: others ∧ Closes last := by
        rw [read_eq_ok_iff, list]
        simp [eq_comm, and_assoc]
      refine ⟨?_, fun found same => ?_⟩
      · simp only [accepted, exists_eq_left, exists_isClause_iff result, ended, true_and]
        exact up.closes_iff
      · obtain ⟨rfl, closed⟩ := (accepted found).mp same
        exact .cons ⟨rest, result, ended⟩ (up.clauses closed)
    | false =>
      obtain ⟨more, unclosed⟩ := followers_remainder plainSegment result ended segments
      rw [more] at list
      have never := rejected list unclosed
      refine ⟨iff_of_false (fun ⟨found, same⟩ => never found same) fun both => ?_,
        fun found same => absurd same (never found)⟩
      rw [exists_isClause_iff result, ended] at both
      exact absurd both.1 (by decide)

/-- No clause begins at the end of the text or with a semicolon. -/
theorem result_clause_of_at {text : List Char} (ended : Stops.semicolon.At text) :
    (clause text).result = none := by
  cases text with
  | nil => rfl
  | cons c rest =>
    have semicolon : c = ';' := by simpa [Stops.semicolon] using ended c rfl
    rw [semicolon]
    rfl

/-- Where the first segment is blank, all must be, and there can be no more than two. -/
theorem read_blank_segment {segment : List Char} (spaces : blank segment = true)
    (segments : List (List Char)) :
    ((∃ found, read (segment ++ afterSemicolons segments) = .ok found) ↔
        (∀ s ∈ segments, blank s = true) ∧ segments.length ≤ 1) ∧
      ∀ found, read (segment ++ afterSemicolons segments) = .ok found → found = [] := by
  have missed : (clause (strip (segment ++ afterSemicolons segments))).result = none := by
    rw [strip_append_of_blank spaces]
    apply result_clause_of_at
    cases segments with
    | nil => exact Stops.at_nil
    | cons first segments =>
      rw [afterSemicolons, List.cons_append, strip_cons_of_not (by decide)]
      exact Stops.at_cons (by decide) _
  have list : (separated ";" clause _).result = _ := result_separated_of_none missed
  rw [← closes_afterSemicolons_iff spaces]
  refine ⟨⟨?_, fun closes => ⟨[], read_eq_ok_iff.mpr ⟨_, list, closes⟩⟩⟩, fun found same => ?_⟩
  · rintro ⟨found, same⟩
    obtain ⟨rest, other, closes⟩ := read_eq_ok_iff.mp same
    rw [list] at other
    cases other
    exact closes
  · obtain ⟨rest, other, -⟩ := read_eq_ok_iff.mp same
    rw [list] at other
    cases other
    rfl

end Grammar

open Grammar

/-- The pieces of a source between semicolons. -/
def segments (source : String) : List (List Char) := source.toList.splitOn ';'

/-- A segment consists of characters of the source, without semicolons. -/
theorem mem_of_mem_splitOn {text segment : List Char} (member : segment ∈ text.splitOn ';') :
    ∀ c ∈ segment, c ∈ text ∧ c ≠ ';' := (Rule.cut_splitOn ';' text).mem member

/-- A plain segment that is not blank is read by itself when it is a clause. -/
theorem parseRaw_segment {segment : List Char} (plain : Plain segment)
    (tidy : ∀ c ∈ segment, isStray c = false) (solid : blank segment = false) :
    ((parseRaw (String.ofList segment)).isOk = true ↔ ∃ found, IsClause segment found) ∧
      ∀ found, IsClause segment found →
        parseRaw (String.ofList segment) = .ok [found.rawAction] := by
  have text : clean (String.ofList segment).toList = segment := by
    rw [String.toList_ofList, clean_of_forall tidy]
  have nothing : ∀ s ∈ ([] : List (List Char)), Plain s := by simp
  have alone := read_segments plain solid nothing
  rw [afterSemicolons, List.append_nil] at alone
  have none : MayFollow [] := (mayFollow_iff_of_blanks (by simp)).mpr (by simp)
  have accepted : (∃ found, read segment = .ok found) ↔ ∃ found, IsClause segment found :=
    alone.1.trans (and_iff_left none)
  refine ⟨by rw [isOk_parseRaw_iff, text, accepted], fun found clause => ?_⟩
  obtain ⟨clauses, same⟩ := accepted.mpr ⟨found, clause⟩
  have list := alone.2 clauses same
  rw [List.filter_nil, List.forall₂_cons_left_iff] at list
  obtain ⟨other, more, ⟨last, again, -⟩, empty, rfl⟩ := list
  cases List.forall₂_nil_left_iff.mp empty
  obtain ⟨rest, result, -⟩ := clause
  rw [result] at again
  cases again
  rw [parseRaw_eq_ok_iff, text]
  exact ⟨_, same, rfl⟩

/-- Segments may follow a clause when those that are not blank are accepted by themselves. -/
theorem mayFollow_iff {segments : List (List Char)}
    (sound : ∀ s ∈ segments, Plain s ∧ ∀ c ∈ s, isStray c = false) :
    MayFollow segments ↔
      (∀ s ∈ segments, blank s = false → (parseRaw (String.ofList s)).isOk = true) ∧
        (segments.reverse.takeWhile blank).length ≤ 1 :=
  and_congr_left fun _ => forall_congr' fun s => forall_congr' fun member =>
    forall_congr' fun solid => (parseRaw_segment (sound s member).1 (sound s member).2 solid).1.symm

/-- Each clause has the action that its segment has by itself. -/
theorem forall₂_parseRaw {segments : List (List Char)} {clauses : List Clause}
    (sound : ∀ s ∈ segments, Plain s ∧ ∀ c ∈ s, isStray c = false)
    (found : List.Forall₂ IsClause (segments.filter fun s => !blank s) clauses) :
    List.Forall₂ (fun s action => parseRaw (String.ofList s) = .ok [action])
      (segments.filter fun s => !blank s) (clauses.map Clause.rawAction) := by
  have each : ∀ s ∈ segments.filter fun s => !blank s, ∀ found, IsClause s found →
      parseRaw (String.ofList s) = .ok [found.rawAction] := by
    intro s kept
    obtain ⟨member, solid⟩ := List.mem_filter.mp kept
    exact (parseRaw_segment (sound s member).1 (sound s member).2 (by simpa using solid)).2
  rw [List.forall₂_map_right_iff]
  exact ((List.forall₂_and_left _ _).mpr ⟨each, found⟩).imp fun s found clause =>
    clause.1 found clause.2

/-- A source without quotes and stray controls is accepted when it consists of one or two blank
segments, or begins with a segment that is not blank, has only accepted segments besides blank
ones, and ends with no more than one blank segment. Its actions are those of its segments, one for
each that is not blank. -/
theorem parseRaw_iff_segments {source : String}
    (plain : ∀ c ∈ source.toList, c ≠ '\x22' ∧ isStray c = false) :
    (tryParse source).isOk = (parseRaw source).isOk ∧
      ((parseRaw source).isOk = true ↔
        ((∀ s ∈ segments source, blank s = true) ∧ (segments source).length ≤ 2) ∨
        ((∃ s ∈ (segments source).head?, blank s = false) ∧
          (∀ s ∈ segments source, blank s = false →
            (parseRaw (String.ofList s)).isOk = true) ∧
          ((segments source).reverse.takeWhile blank).length ≤ 1)) ∧
      ∀ actions, parseRaw source = .ok actions →
        List.Forall₂ (fun s action => parseRaw (String.ofList s) = .ok [action])
          ((segments source).filter fun s => !blank s) actions := by
  refine ⟨isOk_tryParse source, ?_⟩
  have inside : ∀ s ∈ segments source, Plain s ∧ ∀ c ∈ s, isStray c = false := by
    intro s member
    have part := mem_of_mem_splitOn member
    exact ⟨fun c mem => ⟨(plain c (part c mem).1).1, (part c mem).2⟩,
      fun c mem => (plain c (part c mem).1).2⟩
  have whole : [';'].intercalate (segments source) = source.toList := List.intercalate_splitOn ';'
  obtain ⟨first, others, split⟩ := List.exists_cons_of_ne_nil
    (show segments source ≠ [] from List.splitOnP_ne_nil _ _)
  have text : clean source.toList = first ++ afterSemicolons others := by
    rw [clean_of_forall fun c mem => (plain c mem).2, ← whole, split, intercalate_eq_append]
  rw [split, List.forall_mem_cons] at inside
  obtain ⟨firstSound, othersSound⟩ := inside
  rw [split, isOk_parseRaw_iff, text, List.head?_cons]
  have same {actions : List RawAction} (accepted : parseRaw source = .ok actions) :
      ∃ clauses, Grammar.read (first ++ afterSemicolons others) = .ok clauses ∧
        actions = clauses.map Clause.rawAction := by
    rw [← text]
    exact parseRaw_eq_ok_iff.mp accepted
  by_cases spaces : blank first = true
  · obtain ⟨accepted, none⟩ := read_blank_segment spaces others
    refine ⟨?_, fun actions result => ?_⟩
    · rw [accepted]
      simp [spaces]
    · obtain ⟨found, read, rfl⟩ := same result
      have hollow := (accepted.mp ⟨found, read⟩).1
      rw [none found read, List.filter_eq_nil_iff.mpr (by simpa [spaces] using hollow)]
      exact .nil
  · rw [Bool.not_eq_true] at spaces
    obtain ⟨accepted, clauses⟩ :=
      read_segments firstSound.1 spaces fun s member => (othersSound s member).1
    have alone := parseRaw_segment firstSound.1 firstSound.2 spaces
    have trailing := length_takeWhile_blank [] spaces others
    rw [List.nil_append] at trailing
    refine ⟨?_, fun actions result => ?_⟩
    · rw [accepted, mayFollow_iff othersSound, ← alone.1, trailing, List.forall_mem_cons,
        List.forall_mem_cons]
      simp [spaces, and_assoc]
    · obtain ⟨found, read, rfl⟩ := same result
      refine forall₂_parseRaw (List.forall_mem_cons.mpr ⟨firstSound, othersSound⟩) ?_
      rw [List.filter_cons_of_pos (by simp [spaces])]
      exact clauses found read

/-- A source of four segments, of which the second and the last are blank. -/
theorem parseRaw_iff_segments_four :
    (parseRaw "create examine; ;bump examine; ").isOk = true ↔
      (parseRaw "create examine").isOk = true ∧ (parseRaw "bump examine").isOk = true := by
  have split : segments "create examine; ;bump examine; " =
      ["create examine".toList, [' '], "bump examine".toList, [' ']] := by decide
  have plain : ∀ c ∈ "create examine; ;bump examine; ".toList, c ≠ '\x22' ∧ isStray c = false := by
    decide
  have law := (parseRaw_iff_segments plain).2.1
  have first : blank "create examine".toList = false := by decide
  have third : blank "bump examine".toList = false := by decide
  have hollow : blank [' '] = true := by decide
  have trailing : ([[' '], "bump examine".toList, [' '], "create examine".toList].takeWhile
      blank).length = 1 := by decide
  rw [split] at law
  simp only [List.forall_mem_cons, List.head?_cons, first, third, hollow, List.reverse_cons,
    List.reverse_nil, List.nil_append, List.cons_append, trailing, String.ofList_toList] at law
  refine law.trans ⟨?_, ?_⟩
  · rintro (⟨⟨solid, -⟩, -⟩ | ⟨-, ⟨one, -, two, -⟩, -⟩)
    · cases solid
    · exact ⟨one trivial, two trivial⟩
  · rintro ⟨one, two⟩
    exact .inr ⟨⟨_, rfl, first⟩, ⟨fun _ => one, nofun, fun _ => two, nofun, nofun⟩, le_rfl⟩

end ActionString
