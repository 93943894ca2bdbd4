import ActionString.Proofs.Crossing
import ActionString.Proofs.Places
import ActionString.Proofs.Words

/-!
# What is missed behind a command

Behind a command, reading goes on up to the end of the text. Where a comma comes next, it goes on
with the next command, and where a semicolon comes next, with the first command of the next clause
if there is a trigger. What is missed from there on is missed by that command or behind it, or not
beyond its beginning.
-/

namespace ActionString.Grammar

open Rule

variable {α β : Type} {text rest after : List Char} {item : Expected}

instance : Built morePhrases := by
  unfold morePhrases
  infer_instance

instance : Built onward := by
  unfold onward
  infer_instance

instance (value : α) : Built (closing value) := by
  unfold closing
  infer_instance

/-- What comes behind a command, up to the end of the text. -/
def finish : Rule (List Phrase × List Clause) := onward >>= closing

instance : Built finish := by
  unfold finish
  infer_instance

/-- Behind two traces of rules, what is missed is missed by one of them. -/
theorem mem_outside_append_iff {rule : Rule α} [built : Built rule] {trace : List Event} :
    (after, item) ∈ outside 0 ((rule text).trace ++ trace) ↔
      (after, item) ∈ outside 0 (rule text).trace ∨ (after, item) ∈ outside 0 trace := by
  rw [outside_append, built.depthAfter_trace, List.mem_append]

/-- A change of the value leaves what is missed. -/
theorem mem_outside_map_iff {rule : Rule α} [Built rule] {change : α → β} :
    (after, item) ∈ outside 0 ((change <$> rule) text).trace ↔
      (after, item) ∈ outside 0 (rule text).trace := by
  change _ ∈ outside 0 ((rule >>= fun value => pure (change value)) text).trace ↔ _
  rw [mem_outside_bind_iff]
  simp [outside]

/-- A fixed text is missed where it is not read. -/
theorem of_mem_literal {word : String}
    (member : (after, item) ∈ outside 0 (literal word text).trace) :
    after = text ∧ item = .literal word ∧ (literal word text).result = none := by
  obtain ⟨before, rfl, misses⟩ := Misses.of_mem member
  obtain ⟨rfl, rfl, missed⟩ := Misses.expecting misses
  refine ⟨rfl, rfl, ?_⟩
  rw [literal, expecting, List.nil_append, missed]

/-- Without a separator after spaces, only spaces are passed over. -/
theorem passOver_of_ne {d : Char} (other : (strip text).head? ≠ some d) :
    passOver d text = strip text := by
  rw [← passOver_strip]
  cases stripped : strip text with
  | nil => rfl
  | cons c rest =>
    refine passOver_of_solid (isSpace_of_strip stripped) (fun same => other ?_) rest
    rw [stripped, same]
    rfl

/-- Behind spaces and separators, another separator is missed. -/
theorem eq_of_mem_separators {separator : String} {d : Char} (single : separator.toList = [d])
    (member : (after, item) ∈ outside 0 (separators separator text).trace) :
    after = passOver d text ∧ item = .literal separator := by
  have here {text : List Char}
      (member : (after, item) ∈ outside 0 (literal separator (strip text)).trace) :
      after = passOver d text ∧ item = .literal separator := by
    obtain ⟨rfl, rfl, missed⟩ := of_mem_literal member
    refine ⟨(passOver_of_ne fun front => ?_).symm, rfl⟩
    obtain ⟨rest, same⟩ := List.head?_eq_some_iff.mp front
    rw [same, result_literal_self single] at missed
    cases missed
  have behind {text rest : List Char} {value : List Char}
      (found : (literal separator (strip text)).result = some (value, rest)) :
      passOver d rest = passOver d text := by
    have front := (eq_append_of_result_literal found).2
    rw [single] at front
    rw [← passOver_strip text, front]
    exact (passOver_cons rest).symm
  have marks {text : List Char}
      (member : (after, item) ∈ outside 0 (spacedMany (literal separator) text).trace) :
      after = passOver d text ∧ item = .literal separator := by
    induction text using repeat_induction fun text => literal separator (strip text) with
    | stop text missed =>
      rw [spacedMany_of_none missed] at member
      exact here member
    | idle text value rest found same =>
      rw [spacedMany_of_idle found same] at member
      exact here member
    | step text value rest found shorter ih =>
      rw [spacedMany_of_some found shorter, mem_outside_append_iff] at member
      obtain first | later := member
      · exact here first
      · rw [← behind found]
        exact ih later
  rw [separators, mem_outside_bind_iff] at member
  obtain spaces | ⟨_, _, skipped, member⟩ := member
  · cases spaces
  rw [result_spaces] at skipped
  cases skipped
  rw [mem_outside_bind_iff] at member
  obtain first | ⟨_, _, found, member⟩ := member
  · exact here first
  rw [mem_outside_bind_iff] at member
  obtain more | ⟨_, _, -, member⟩ := member
  · rw [← behind found]
    exact marks more
  · cases member

/-- Where there is a separator, the element after it may be missed, and the separator itself behind
all separators. -/
theorem mem_outside_follower_iff {separator : String} {d : Char} (single : separator.toList = [d])
    {element : Rule α} [Built element] (front : (strip text).head? = some d) :
    (after, item) ∈ outside 0 (follower separator element text).trace ↔
      (after, item) ∈ outside 0 (separators separator text).trace ∨
        (after, item) ∈ outside 0 (element (passOver d text)).trace := by
  obtain ⟨rest, stripped⟩ := List.head?_eq_some_iff.mp front
  obtain ⟨found, last, more, stripLast⟩ := exists_result_spacedMany_literal single rest
  have passed : strip last = passOver d text := by
    rw [stripLast, ← passOver_strip text, stripped, passOver_cons]
  have result : (separators separator text).result = some ((), last) := by
    simp [separators, result_bind, stripped, result_literal_self single, more]
  rw [follower, mem_outside_bind_iff]
  refine or_congr Iff.rfl ?_
  simp [result, ← passed]

/-- The elements of a list go on behind a separator and an element. -/
theorem mem_outside_followers_iff {separator : String} {d : Char}
    (single : separator.toList = [d]) {element : Rule α} [Built element]
    (front : (strip text).head? = some d) :
    (after, item) ∈ outside 0 (followers separator element text).trace ↔
      (after, item) ∈ outside 0 (separators separator text).trace ∨
        (after, item) ∈ outside 0 (element (passOver d text)).trace ∨
        ∃ value rest, (element (passOver d text)).result = some (value, rest) ∧
          (after, item) ∈ outside 0 (followers separator element rest).trace := by
  have step := result_follower_of_eq single element front
  have missed : (after, item) ∈ outside 0 (follower separator element text).trace ↔
      (after, item) ∈ outside 0 (separators separator text).trace ∨
        (after, item) ∈ outside 0 (element (passOver d text)).trace :=
    mem_outside_follower_iff single front
  rw [← or_assoc, ← missed]
  cases found : (element (passOver d text)).result with
  | none =>
    rw [found] at step
    simp [followers_of_none step]
  | some pair =>
    obtain ⟨value, rest⟩ := pair
    rw [found] at step
    have shorter : rest.length < text.length :=
      Nat.lt_of_le_of_lt (Forward.length_le found) (length_passOver_lt front)
    have : Built (follower separator element) :=
      inferInstanceAs (Built (separators separator >>= fun _ => spaced element))
    rw [followers_of_some step shorter, mem_outside_append_iff]
    simp

/-- Where no separator comes, it is missed. -/
theorem of_mem_followers_of_ne {separator : String} {d : Char} (single : separator.toList = [d])
    {element : Rule α} [Built element] (other : (strip text).head? ≠ some d)
    (member : (after, item) ∈ outside 0 (followers separator element text).trace) :
    after = strip text ∧ item = .literal separator := by
  have step := result_follower_of_ne single element other
  rw [followers_of_none step, follower, mem_outside_bind_iff] at member
  obtain first | ⟨value, rest, found, later⟩ := member
  · rw [← passOver_of_ne other]
    exact eq_of_mem_separators single first
  · have missed : (separators separator text).result = none := by
      simp [separators, result_bind, result_literal_of_ne single other]
    rw [missed] at found
    cases found

/-- An optional word behind spaces is missed where its rule misses it. -/
theorem mem_outside_spacedOptional_iff {rule : Rule α} [Built rule] :
    (after, item) ∈ outside 0 (spacedOptional rule text).trace ↔
      (after, item) ∈ outside 0 (rule (strip text)).trace := by
  have nothing : (after, item) ∉ outside 0 (succeed (none : Option α) text).trace :=
    List.not_mem_nil
  change _ ∈ outside 0 (orElse (some <$> spaced rule) (succeed none) text).trace ↔ _
  rw [mem_outside_orElse_iff, mem_outside_map_iff, spaced_eq]
  simp [nothing]

/-- Behind the first of more commands, the others are missed. -/
theorem mem_outside_morePhrases_iff {value : Phrase} (front : (strip text).head? = some ',')
    (found : (phrase (passOver ',' text)).result = some (value, rest)) :
    (after, item) ∈ outside 0 (morePhrases text).trace ↔
      (after, item) ∈ outside 0 (separators "," text).trace ∨
        (after, item) ∈ outside 0 (phrase (passOver ',' text)).trace ∨
        (after, item) ∈ outside 0 (morePhrases rest).trace := by
  have single : ("," : String).toList = [','] := rfl
  obtain ⟨values, last, more⟩ := exists_result_followers "," phrase rest
  have first := result_followers_of_some single front found
  rw [more] at first
  rw [morePhrases, mem_outside_bind_iff, mem_outside_bind_iff,
    mem_outside_followers_iff single front]
  simp [found, first, more, mem_outside_bind_iff, or_assoc]

/-- Where no comma comes, it is missed. -/
theorem of_mem_morePhrases (other : (strip text).head? ≠ some ',')
    (member : (after, item) ∈ outside 0 (morePhrases text).trace) :
    after = strip text ∧ item = .literal "," := by
  have single : ("," : String).toList = [','] := rfl
  rw [morePhrases, mem_outside_bind_iff] at member
  obtain first | ⟨_, _, found, member⟩ := member
  · exact of_mem_followers_of_ne single other first
  rw [result_followers_of_ne single phrase other] at found
  cases found
  rw [mem_outside_bind_iff] at member
  obtain second | ⟨_, _, -, member⟩ := member
  · rw [mem_outside_spacedOptional_iff] at second
    obtain ⟨rfl, rfl, -⟩ := of_mem_literal second
    exact ⟨rfl, rfl⟩
  · cases member

/-- A list is missed like its first element and the others. -/
theorem mem_outside_separated_iff {separator : String} {element : Rule α} [Built element]
    {value : α} (found : (element (strip text)).result = some (value, rest)) :
    (after, item) ∈ outside 0 (separated separator element text).trace ↔
      (after, item) ∈ outside 0 (element (strip text)).trace ∨
        (after, item) ∈ outside 0 (followers separator element rest).trace := by
  have first : (spacedOptional element text).result = some (some value, rest) := by
    simp [spacedOptional, result_optional, found]
  rw [separated, mem_outside_bind_iff, mem_outside_spacedOptional_iff]
  simp [first, mem_outside_bind_iff, outside]

/-- A clause is missed like its trigger, its first command and the commands behind it. -/
theorem mem_outside_clause_iff {kind : Trigger} {middle : List Char} {value : Phrase}
    (begun : (trigger text).result = some (kind, middle))
    (found : (phrase (strip middle)).result = some (value, rest)) :
    (after, item) ∈ outside 0 (clause text).trace ↔
      (after, item) ∈ outside 0 (trigger text).trace ∨
        (after, item) ∈ outside 0 (phrase (strip middle)).trace ∨
        (after, item) ∈ outside 0 (morePhrases rest).trace := by
  obtain ⟨values, last, more⟩ := exists_result_followers "," phrase rest
  have list : (separated "," phrase middle).result = some (value :: values, last) := by
    rw [result_separated_of_some found, more]
    rfl
  rw [clause, mem_outside_bind_iff, morePhrases, mem_outside_bind_iff]
  simp [begun, list, more, mem_outside_bind_iff, mem_outside_separated_iff found, or_assoc]

/-- Clauses that begin with a trigger are missed like it, the first command and what comes behind
that. -/
theorem mem_outside_someClauses_iff {kind : Trigger} {middle : List Char} {value : Phrase}
    (begun : (trigger text).result = some (kind, middle))
    (found : (phrase (strip middle)).result = some (value, rest)) :
    (after, item) ∈ outside 0 (someClauses text).trace ↔
      (after, item) ∈ outside 0 (trigger text).trace ∨
        (after, item) ∈ outside 0 (phrase (strip middle)).trace ∨
        (after, item) ∈ outside 0 (onward rest).trace := by
  obtain ⟨values, last, more⟩ := exists_result_morePhrases rest
  have first : (clause text).result = some (⟨kind, value :: values⟩, last) := by
    rw [result_clause_of_some begun found, more]
    rfl
  rw [someClauses, mem_outside_bind_iff, onward, mem_outside_bind_iff,
    mem_outside_clause_iff begun found]
  simp [first, more, mem_outside_map_iff, or_assoc]

/-- Without a trigger, clauses are missed like it. -/
theorem mem_outside_someClauses_of_none (missed : (trigger text).result = none) :
    (after, item) ∈ outside 0 (someClauses text).trace ↔
      (after, item) ∈ outside 0 (trigger text).trace := by
  rw [someClauses, mem_outside_bind_iff, clause, mem_outside_bind_iff]
  simp [result_bind, missed]

/-- Behind a semicolon, clauses are missed, and the semicolon itself behind all semicolons. -/
theorem mem_outside_followers_semicolon_iff (front : (strip text).head? = some ';') :
    (after, item) ∈ outside 0 (followers ";" clause text).trace ↔
      (after, item) ∈ outside 0 (separators ";" text).trace ∨
        (after, item) ∈ outside 0 (someClauses (passOver ';' text)).trace := by
  have single : (";" : String).toList = [';'] := rfl
  rw [mem_outside_followers_iff single front, someClauses, mem_outside_bind_iff]
  simp [mem_outside_map_iff]

/-- The word of a trigger is missed where it should begin. -/
theorem of_mem_trigger (member : (after, item) ∈ outside 0 (trigger text).trace) :
    after = text ∧ ∃ kind : Trigger, item = .literal kind.word := by
  have family {kinds : List Trigger}
      (member : (after, item) ∈ outside 0 (firstOf (kinds.map fun kind => do
        let _ ← keyword kind.word
        return kind) text).trace) : after = text ∧ ∃ kind : Trigger, item = .literal kind.word := by
    induction kinds with
    | nil => cases member
    | cons kind kinds ih =>
      obtain first | ⟨-, others⟩ := mem_outside_orElse_iff.mp member
      · obtain word | ⟨_, _, _, last⟩ := mem_outside_bind_iff.mp first
        · obtain ⟨before, rfl, misses⟩ := Misses.of_mem word
          obtain ⟨rfl, rfl⟩ := misses.keyword
          exact ⟨rfl, kind, rfl⟩
        · cases last
      · exact ih others
  exact family member

/-- What comes behind a command is missed like the commands, the clauses and the end. -/
theorem mem_outside_finish_iff {value : List Phrase × List Clause}
    (found : (onward text).result = some (value, rest)) :
    (after, item) ∈ outside 0 (finish text).trace ↔
      (after, item) ∈ outside 0 (onward text).trace ∨
        (after, item) ∈ outside 0 (closing () rest).trace := by
  have same : (closing value rest).trace = (closing () rest).trace := by
    simp [closing, trace_bind]
  rw [finish, mem_outside_bind_iff]
  simp [found, same]

/-- The semicolon that may come last is read where it comes. -/
theorem exists_result_semicolon (text : List Char) : ∃ mark last,
    (spacedOptional (literal ";") text).result = some (mark, last) ∧
      ((strip text).head? ≠ some ';' ∧ last = text ∨ strip text = ';' :: last) := by
  have single : (";" : String).toList = [';'] := rfl
  rw [spacedOptional, result_optional, spaced_eq]
  by_cases front : (strip text).head? = some ';'
  · obtain ⟨rest, stripped⟩ := List.head?_eq_some_iff.mp front
    rw [stripped, result_literal_self single]
    exact ⟨_, _, rfl, .inr rfl⟩
  · rw [result_literal_of_ne single front]
    exact ⟨_, _, rfl, .inl ⟨front, rfl⟩⟩

/-- At a closing, the end is missed behind the semicolon that comes, or a semicolon and the end. -/
theorem of_mem_closing (member : (after, item) ∈ outside 0 (closing () text).trace) :
    (strip text).head? ≠ some ';' ∧ after = strip text ∧
        (item = .literal ";" ∨ item = .endOfInput) ∨
      ∃ rest, strip text = ';' :: rest ∧ after = strip rest ∧ item = .endOfInput := by
  obtain ⟨mark, last, read, cases⟩ := exists_result_semicolon text
  rw [closing, mem_outside_bind_iff, mem_outside_spacedOptional_iff] at member
  obtain semicolon | ⟨_, _, found, member⟩ := member
  · obtain ⟨rfl, rfl, missed⟩ := of_mem_literal semicolon
    refine .inl ⟨fun front => ?_, rfl, .inl rfl⟩
    obtain ⟨rest, stripped⟩ := List.head?_eq_some_iff.mp front
    rw [stripped, result_literal_self rfl] at missed
    cases missed
  · rw [read] at found
    cases found
    rw [mem_outside_bind_iff, result_spaces] at member
    obtain spaces | ⟨_, _, skipped, member⟩ := member
    · cases spaces
    cases skipped
    rw [mem_outside_bind_iff] at member
    obtain ended | ⟨_, _, -, member⟩ := member
    · obtain ⟨before, whole, misses⟩ := Misses.of_mem ended
      obtain ⟨rfl, rfl, -⟩ := misses.expecting
      obtain ⟨front, rfl⟩ | stripped := cases
      · exact .inl ⟨front, whole.symm, .inr rfl⟩
      · exact .inr ⟨_, stripped, whole.symm, rfl⟩
    · cases member

/-- Where a text does not close a list of clauses, its end is missed behind the semicolon that may
come first. -/
theorem exists_mem_closing (left : ¬Closes text) :
    ∃ after, (after, .endOfInput) ∈ outside 0 (closing () text).trace ∧
      ((strip text).head? ≠ some ';' ∧ after = strip text ∨
        ∃ rest, strip text = ';' :: rest ∧ after = strip rest) := by
  obtain ⟨mark, last, read, cases⟩ := exists_result_semicolon text
  have solid : ¬blank last = true := by
    rintro ended
    obtain ⟨-, rfl⟩ | stripped := cases
    · exact left (.inl ended)
    · exact left (.inr ⟨last, stripped, ended⟩)
  have missed : (endOfInput (strip last)).result = none := by
    rw [result_endOfInput_strip, if_neg solid]
  have member : (strip last, Expected.endOfInput) ∈
      outside 0 ((endOfInput >>= fun _ => pure ()) (strip last)).trace :=
    mem_outside_bind_iff.mpr (.inl (endOfInput_missed missed))
  refine ⟨strip last, mem_outside_bind read (mem_outside_bind (result_spaces last) member), ?_⟩
  obtain ⟨front, rfl⟩ | stripped := cases
  · exact .inl ⟨front, rfl⟩
  · exact .inr ⟨last, stripped, rfl⟩

/-- Behind a comma, reading goes on with the next command. -/
theorem result_onward_of_comma {value : Phrase} (front : (strip text).head? = some ',')
    (found : (phrase (passOver ',' text)).result = some (value, rest)) :
    (onward text).result = (onward rest).result.map fun more =>
      ((value :: more.1.1, more.1.2), more.2) := by
  obtain ⟨values, last, more⟩ := exists_result_morePhrases rest
  have first := result_morePhrases_of_eq front found
  rw [more] at first
  rw [onward, result_bind_of_some more, result_bind_of_some first, result_map, result_map,
    Option.map_map]
  rfl

/-- Clauses that begin with a trigger are its first command and what comes behind that. -/
theorem result_someClauses {kind : Trigger} {middle : List Char} {value : Phrase}
    (begun : (trigger text).result = some (kind, middle))
    (found : (phrase (strip middle)).result = some (value, rest)) :
    (someClauses text).result = (onward rest).result.map fun more =>
      (⟨kind, value :: more.1.1⟩ :: more.1.2, more.2) := by
  obtain ⟨values, last, more⟩ := exists_result_morePhrases rest
  obtain ⟨clauses, final, others⟩ := exists_result_followers ";" clause last
  have clause := result_clause_of_some begun found
  rw [more] at clause
  rw [someClauses, result_bind_of_some clause, onward, result_bind_of_some more, result_map,
    result_map, others]
  rfl

/-- Behind a semicolon and a trigger, reading goes on with the first command of the clause. -/
theorem result_onward_of_semicolon {kind : Trigger} {middle : List Char} {value : Phrase}
    (front : (strip text).head? = some ';')
    (begun : (trigger (passOver ';' text)).result = some (kind, middle))
    (found : (phrase (strip middle)).result = some (value, rest)) :
    (onward text).result = (onward rest).result.map fun more =>
      (([], ⟨kind, value :: more.1.1⟩ :: more.1.2), more.2) := by
  have other : (strip text).head? ≠ some ',' := by simp [front]
  obtain ⟨more, last, result⟩ := exists_result_onward rest
  have list := result_someClauses begun found
  rw [result] at list
  rw [result, onward, result_bind_of_some (result_morePhrases_of_ne other), result_map,
    result_followers_eq front, list]
  rfl

/-- Behind a semicolon without a trigger, and where no separator comes, reading stops. -/
theorem result_onward_of_stop (other : (strip text).head? ≠ some ',')
    (stop : (strip text).head? = some ';' → (trigger (passOver ';' text)).result = none) :
    (onward text).result = some (([], []), text) := by
  have single : (";" : String).toList = [';'] := rfl
  have ended : (followers ";" clause text).result = some ([], text) := by
    by_cases front : (strip text).head? = some ';'
    · exact result_followers_of_none single (result_clause_of_none (stop front))
    · exact result_followers_of_ne single clause front
  rw [onward, result_bind_of_some (result_morePhrases_of_ne other), result_map, ended]
  rfl

/-- The clauses behind the commands are missed like them. -/
theorem mem_outside_onward_iff {values : List Phrase}
    (found : (morePhrases text).result = some (values, rest)) :
    (after, item) ∈ outside 0 (onward text).trace ↔
      (after, item) ∈ outside 0 (morePhrases text).trace ∨
        (after, item) ∈ outside 0 (followers ";" clause rest).trace := by
  rw [onward, mem_outside_bind_iff]
  simp [found, mem_outside_map_iff]

/-- Behind a comma, the next command is missed and what comes behind it. -/
theorem mem_outside_finish_of_comma {value : Phrase} (front : (strip text).head? = some ',')
    (found : (phrase (passOver ',' text)).result = some (value, rest)) :
    (after, item) ∈ outside 0 (finish text).trace ↔
      (after, item) ∈ outside 0 (separators "," text).trace ∨
        (after, item) ∈ outside 0 (phrase (passOver ',' text)).trace ∨
        (after, item) ∈ outside 0 (finish rest).trace := by
  obtain ⟨values, last, more⟩ := exists_result_morePhrases rest
  obtain ⟨state, final, onwards⟩ := exists_result_onward rest
  have first := result_morePhrases_of_eq front found
  rw [more] at first
  have whole := result_onward_of_comma front found
  rw [onwards] at whole
  rw [mem_outside_finish_iff whole, mem_outside_finish_iff onwards, mem_outside_onward_iff first,
    mem_outside_onward_iff more, mem_outside_morePhrases_iff front found]
  simp only [or_assoc]

/-- Behind a semicolon and a trigger, the first command of the clause is missed and what comes
behind it. -/
theorem mem_outside_finish_of_semicolon {kind : Trigger} {middle : List Char} {value : Phrase}
    (front : (strip text).head? = some ';')
    (begun : (trigger (passOver ';' text)).result = some (kind, middle))
    (found : (phrase (strip middle)).result = some (value, rest)) :
    (after, item) ∈ outside 0 (finish text).trace ↔
      (after, item) ∈ outside 0 (morePhrases text).trace ∨
        (after, item) ∈ outside 0 (separators ";" text).trace ∨
        (after, item) ∈ outside 0 (trigger (passOver ';' text)).trace ∨
        (after, item) ∈ outside 0 (phrase (strip middle)).trace ∨
        (after, item) ∈ outside 0 (finish rest).trace := by
  have other : (strip text).head? ≠ some ',' := by simp [front]
  obtain ⟨state, final, onwards⟩ := exists_result_onward rest
  have whole := result_onward_of_semicolon front begun found
  rw [onwards] at whole
  rw [mem_outside_finish_iff whole, mem_outside_finish_iff onwards,
    mem_outside_onward_iff (result_morePhrases_of_ne other),
    mem_outside_followers_semicolon_iff front, mem_outside_someClauses_iff begun found]
  simp only [or_assoc]

/-- Where reading stops, separators, triggers and the end are missed. -/
theorem mem_outside_finish_of_stop (other : (strip text).head? ≠ some ',')
    (stop : (strip text).head? = some ';' → (trigger (passOver ';' text)).result = none) :
    (after, item) ∈ outside 0 (finish text).trace ↔
      (after, item) ∈ outside 0 (morePhrases text).trace ∨
        (after, item) ∈ outside 0 (followers ";" clause text).trace ∨
        (after, item) ∈ outside 0 (closing () text).trace := by
  rw [mem_outside_finish_iff (result_onward_of_stop other stop),
    mem_outside_onward_iff (result_morePhrases_of_ne other), or_assoc]

/-- What comes behind a command is read to the end where it is closed. -/
theorem result_finish_eq_none_iff {value : List Phrase × List Clause}
    (found : (onward text).result = some (value, rest)) :
    (finish text).result = none ↔ ¬Closes rest := by
  rw [finish, result_bind_of_some found]
  by_cases closes : Closes rest
  · simp [result_closing_of_closes _ closes, closes]
  · simp [result_closing_of_not_closes _ closes, closes]

end ActionString.Grammar
