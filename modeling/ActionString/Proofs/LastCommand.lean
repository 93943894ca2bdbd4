import ActionString.Proofs.Completion

/-!
# The command at which reading stops

The furthest miss of a rejected text is in its last command or behind it: within the command when
reading is stuck there, and else where a trigger should come behind a semicolon. So it is behind a
text that leads to that command, and is viable if the rule for the command completes its beginning.
-/

namespace ActionString.Grammar

open Rule

variable {text rest : List Char} {value : Phrase}

/-- A command of a kind is read up to a character that neither is a space nor separates
commands. -/
structure Stuck (kind : CommandKind) (text rest : List Char) : Prop where
  known : kind ∈ CommandKind.recognized
  spelt : ∃ spelt body, text = spelt ++ body ∧
    spelt.map Char.toLower = kind.word.toList.map Char.toLower
  found : ∃ value, (phraseOf kind text).result = some (value, rest)
  stopped : ∃ c after, strip rest = c :: after ∧ c ∉ Stops.both.chars

/-- A command of a recognised kind begins with the word of the kind. -/
theorem exists_spelt_of_phraseOf {kind : CommandKind} (known : kind ∈ CommandKind.recognized)
    {found : Phrase × List Char} (read : (phraseOf kind text).result = some found) :
    ∃ spelt body, text = spelt ++ body ∧
      spelt.map Char.toLower = kind.word.toList.map Char.toLower := by
  cases word : (keyword kind.word text).result with
  | none =>
    rw [result_phraseOf_of_none known word] at read
    cases read
  | some pair =>
    have spelling := stripFolded_of_result_keyword word
    exact ⟨pair.1, pair.2, Text.eq_append_of_stripFolded spelling,
      Text.map_toLower_of_stripFolded spelling⟩

/-- A command that is read up to something else than a separator is one of a recognised kind. -/
theorem exists_stuck (found : (phrase text).result = some (value, rest)) {c : Char}
    {after : List Char} (stripped : strip rest = c :: after) (other : c ∉ Stops.both.chars) :
    ∃ kind, Stuck kind text rest ∧ (phraseOf kind text).result = some (value, rest) := by
  rw [result_phrase, Option.or_eq_some_iff] at found
  obtain recognized | ⟨-, unrecognized⟩ := found
  · obtain ⟨kind, known, read⟩ := exists_of_result_firstOf_map recognized
    exact ⟨kind, ⟨known, exists_spelt_of_phraseOf known read, ⟨value, read⟩, c, after, stripped,
      other⟩, read⟩
  · -- Any text is read as an unrecognised command up to a separator.
    rw [result_unrecognized] at unrecognized
    cases unrecognized
    have stop := List.head?_dropWhile_not (fun c => c ≠ ';' && c ≠ ',') text
    cases left : text.dropWhile fun c => c ≠ ';' && c ≠ ',' with
    | nil =>
      rw [left] at stripped
      cases stripped
    | cons d others =>
      rw [left] at stop stripped
      have separator : d ∈ Stops.both.chars := by
        change (d ≠ ';' && d ≠ ',') = false at stop
        simp only [ne_eq, decide_not, Bool.and_eq_false_iff, Bool.not_eq_false', decide_eq_true_eq]
          at stop
        obtain rfl | rfl := stop <;> decide
      rw [strip_cons_of_not (Stops.both.solid d separator)] at stripped
      cases stripped
      exact absurd separator other

/-- A command that is not of a kind misses the word of the kind. -/
theorem eq_of_mem_phraseOf {kind : CommandKind} (known : kind ∈ CommandKind.recognized)
    (missed : (keyword kind.word text).result = none) {after : List Char} {item : Expected}
    (member : (after, item) ∈ outside 0 (phraseOf kind text).trace) : after = text := by
  have word {α : Type} {next : List Char → Rule α}
      (member : (after, item) ∈ outside 0 ((keyword kind.word >>= next) text).trace) :
      after = text := by
    obtain first | ⟨_, _, found, -⟩ := mem_outside_bind_iff.mp member
    · obtain ⟨before, rfl, misses⟩ := Misses.of_mem first
      obtain ⟨rfl, -⟩ := misses.keyword
      rfl
    · rw [missed] at found
      cases found
  rw [CommandKind.mem_recognized_iff] at known
  cases kind
  case invalid => exact absurd rfl known
  all_goals exact word member

/-- What a command misses behind its beginning is missed by its kind. -/
theorem mem_phraseOf_of_mem_phrase {kind : CommandKind} (stuck : Stuck kind text rest)
    {after : List Char} {item : Expected}
    (member : (after, item) ∈ outside 0 (phrase text).trace) (shorter : after ≠ text) :
    (after, item) ∈ outside 0 (phraseOf kind text).trace := by
  obtain ⟨other, inside, misses⟩ := exists_of_mem_firstOf_map member
  obtain ⟨spelt, body, rfl, same⟩ := stuck.spelt
  by_cases own : other = kind
  · exact own ▸ misses
  · obtain known | last := List.mem_append.mp inside
    · have missed := result_keyword_of_differ (differ_word kind stuck.known other known own) same body
      exact absurd (eq_of_mem_phraseOf known missed misses) shorter
    · rw [List.mem_singleton.mp last] at misses
      cases misses

/-- A command that is stuck has read something. -/
theorem Stuck.length_lt {kind : CommandKind} (stuck : Stuck kind text rest) :
    (strip rest).length < text.length := by
  obtain ⟨value, found⟩ := stuck.found
  obtain ⟨spelt, body, rfl, same⟩ := stuck.spelt
  have word {next : List Char → Rule Phrase} [∀ value, Forward (next value)]
      (found : ((keyword kind.word >>= next) (spelt ++ body)).result = some (value, rest)) :
      rest.length ≤ body.length := by
    rw [result_bind_of_some (result_keyword_of_same same body)] at found
    exact Forward.length_le found
  have positive : 0 < spelt.length := by
    obtain ⟨c, front, -⟩ := solid_kind same
    obtain ⟨more, rfl⟩ := List.head?_eq_some_iff.mp front
    exact Nat.succ_pos _
  have left : rest.length ≤ body.length := by
    have known := stuck.known
    rw [CommandKind.mem_recognized_iff] at known
    cases kind
    case invalid => exact absurd rfl known
    all_goals exact word found
  have stripped := (strip_suffix rest).length_le
  rw [List.length_append]
  omega

/-- Something is missed by a command or behind it. -/
def MissedFrom (text rest after : List Char) (item : Expected) : Prop :=
  (after, item) ∈ outside 0 (phrase text).trace ∨ (after, item) ∈ outside 0 (finish rest).trace

/-- What is missed by a command or behind it is missed at an end of the text. -/
theorem MissedFrom.suffix {after : List Char} {item : Expected}
    (missed : MissedFrom text rest after item) (found : (phrase text).result = some (value, rest)) :
    after <:+ text := by
  obtain inside | behind := missed
  · exact (trueOf_mem_outside inside).1
  · exact (trueOf_mem_outside behind).1.trans (Forward.suffix found)

/-- Where neither a separator nor the end comes behind a command, these are missed. -/
theorem of_mem_finish_of_stop {after : List Char} {item : Expected}
    (comma : (strip rest).head? ≠ some ',') (semicolon : (strip rest).head? ≠ some ';')
    (member : (after, item) ∈ outside 0 (finish rest).trace) :
    after = strip rest ∧ item ∈ [.literal ",", .literal ";", .endOfInput] := by
  rw [mem_outside_finish_of_stop comma fun front => absurd front semicolon] at member
  obtain first | second | third := member
  · obtain ⟨rfl, rfl⟩ := of_mem_morePhrases comma first
    exact ⟨rfl, .head _⟩
  · obtain ⟨rfl, rfl⟩ := of_mem_followers_of_ne rfl semicolon second
    exact ⟨rfl, .tail _ (.head _)⟩
  · obtain ⟨-, rfl, rfl | rfl⟩ | ⟨behind, stripped, -⟩ := of_mem_closing third
    · exact ⟨rfl, .tail _ (.head _)⟩
    · exact ⟨rfl, .tail _ (.tail _ (.head _))⟩
    · exact absurd (by rw [stripped]; rfl) semicolon

/-- What a command misses before which it is settled, it misses in front of what comes then. -/
theorem length_le_of_mem_settled {front tail after : List Char} {item : Expected}
    (settled : Settled phrase front) (ends : Stops.both.At tail)
    (member : (after, item) ∈ outside 0 (phrase (front ++ tail)).trace) :
    tail.length ≤ after.length := by
  rw [settled ends] at member
  obtain ⟨event, -, same⟩ := List.mem_map.mp (missed_of_mem_outside member)
  cases event with
  | missed text expected =>
    cases same
    rw [List.length_append]
    omega
  | enter => cases same
  | leave => cases same

/-- Behind a command that leaves a text, reading goes on with the command of another text, which
leaves a third one. -/
structure Enters (rest text left : List Char) : Prop where
  front : ∃ d ∈ Stops.both.chars, (strip rest).head? = some d
  found : ∃ value, (phrase text).result = some (value, left)
  shorter : text.length < (strip rest).length
  finish_iff : (finish rest).result = none ↔ (finish left).result = none
  cases {after : List Char} {item : Expected} :
    (after, item) ∈ outside 0 (finish rest).trace →
      text.length ≤ after.length ∨ MissedFrom text left after item
  missed {after : List Char} {item : Expected} :
    MissedFrom text left after item → (after, item) ∈ outside 0 (finish rest).trace
  leads {lead whole : List Char} {state : List Clause × Trigger × List Phrase} {value : Phrase} :
    Leads lead state whole.head? → (phrase whole).result = some (value, rest) →
      ∃ longer later, lead ++ whole = longer ++ text ∧ Leads longer later text.head?

/-- The text behind separators is shorter than the text that begins with one. -/
theorem length_passOver_lt_strip {d : Char} (front : (strip text).head? = some d) :
    (passOver d text).length < (strip text).length := by
  rw [← passOver_strip]
  exact length_passOver_lt (by rw [strip_strip, front])

/-- Behind a comma, reading goes on with the next command. -/
theorem exists_enters_of_comma (front : (strip rest).head? = some ',') :
    ∃ text left, Enters rest text left := by
  obtain ⟨value, left, found⟩ := exists_result_phrase (passOver ',' rest)
  obtain ⟨more, last, onwards⟩ := exists_result_onward left
  have whole := result_onward_of_comma front found
  rw [onwards] at whole
  refine ⟨passOver ',' rest, left, ⟨',', by decide, front⟩, ⟨value, found⟩, length_passOver_lt_strip front,
    ?_, ?_, ?_, ?_⟩
  · rw [result_finish_eq_none_iff onwards, result_finish_eq_none_iff whole]
  · intro after item member
    refine ((mem_outside_finish_of_comma front found).mp member).imp_left fun separator => ?_
    rw [(eq_of_mem_separators (d := ',') rfl separator).1]
  · intro after item missed
    exact (mem_outside_finish_of_comma front found).mpr (.inr missed)
  · intro lead whole state value leads first
    obtain ⟨longer, same, later⟩ := leads.comma first front
    exact ⟨longer, _, same, later⟩

/-- Behind a semicolon and a trigger, reading goes on with the first command of the clause. -/
theorem exists_enters_of_semicolon (front : (strip rest).head? = some ';') {kind : Trigger}
    {middle : List Char} (begun : (trigger (passOver ';' rest)).result = some (kind, middle)) :
    ∃ text left, Enters rest text left := by
  obtain ⟨value, left, found⟩ := exists_result_phrase (strip middle)
  obtain ⟨more, last, onwards⟩ := exists_result_onward left
  have whole := result_onward_of_semicolon front begun found
  rw [onwards] at whole
  have inner : (strip middle).length ≤ (passOver ';' rest).length :=
    (strip_suffix middle).length_le.trans (Forward.length_le begun)
  have outer := length_passOver_lt_strip front
  have other : (strip rest).head? ≠ some ',' := by simp [front]
  refine ⟨strip middle, left, ⟨';', by decide, front⟩, ⟨value, found⟩, inner.trans_lt outer,
    ?_, ?_, ?_, ?_⟩
  · rw [result_finish_eq_none_iff onwards, result_finish_eq_none_iff whole]
  · intro after item member
    rw [mem_outside_finish_of_semicolon front begun found] at member
    obtain comma | separator | word | missed := member
    · left
      rw [(of_mem_morePhrases other comma).1]
      exact inner.trans outer.le
    · left
      rw [(eq_of_mem_separators (d := ';') rfl separator).1]
      exact inner
    · left
      rw [(of_mem_trigger word).1]
      exact inner
    · exact .inr missed
  · intro after item missed
    exact (mem_outside_finish_of_semicolon front begun found).mpr (.inr (.inr (.inr missed)))
  · intro lead whole state value leads first
    obtain ⟨longer, same, later⟩ := leads.semicolon first front begun
    exact ⟨longer, _, same, later⟩

/-- Behind a command, reading goes on with another one or stops. It stops at the end, behind a
semicolon without a trigger, and where something else than a separator comes. -/
theorem enters_or_stops (rest : List Char) :
    (∃ text left, Enters rest text left) ∨
      (strip rest).head? ≠ some ',' ∧
        ((strip rest).head? = some ';' → (trigger (passOver ';' rest)).result = none) := by
  by_cases comma : (strip rest).head? = some ','
  · exact .inl (exists_enters_of_comma comma)
  by_cases semicolon : (strip rest).head? = some ';'
  · cases begun : (trigger (passOver ';' rest)).result with
    | none => exact .inr ⟨comma, fun _ => rfl⟩
    | some pair => exact .inl (exists_enters_of_semicolon semicolon begun)
  · exact .inr ⟨comma, fun front => absurd front semicolon⟩

/-- Where a command is not closed and no separator comes, reading is stuck in it. -/
theorem exists_stuck_of_stop (found : (phrase text).result = some (value, rest))
    (left : ¬Closes rest) (comma : (strip rest).head? ≠ some ',')
    (semicolon : (strip rest).head? ≠ some ';') : ∃ kind, Stuck kind text rest := by
  cases stripped : strip rest with
  | nil => exact absurd (.inl (strip_eq_nil_iff.mp stripped)) left
  | cons c behind =>
    have solid : c ∉ Stops.both.chars := by
      simpa [stripped, Stops.both] using And.intro comma semicolon
    obtain ⟨kind, stuck, -⟩ := exists_stuck found stripped solid
    exact ⟨kind, stuck⟩

/-- Where the text behind a command is not read to the end, something is missed behind the
beginning of the command. -/
theorem exists_missedFrom_length_lt (found : (phrase text).result = some (value, rest))
    (rejected : (finish rest).result = none) :
    ∃ after item, MissedFrom text rest after item ∧ after.length < text.length := by
  induction length : text.length using Nat.strong_induction_on generalizing text value rest with
  | _ size ih =>
    subst length
    have within := (strip_suffix rest).length_le.trans (Forward.length_le found)
    obtain ⟨next, left, enters⟩ | ⟨comma, stop⟩ := enters_or_stops rest
    · obtain ⟨other, read⟩ := enters.found
      have shorter := enters.shorter.trans_le within
      obtain ⟨after, item, missed, less⟩ := ih _ shorter read (enters.finish_iff.mp rejected) rfl
      exact ⟨after, item, .inr (enters.missed missed), less.trans shorter⟩
    · have onwards := result_onward_of_stop comma stop
      have left := (result_finish_eq_none_iff onwards).mp rejected
      obtain ⟨after, ended, place⟩ := exists_mem_closing left
      refine ⟨after, .endOfInput, .inr ((mem_outside_finish_iff onwards).mpr (.inr ended)), ?_⟩
      obtain ⟨semicolon, rfl⟩ | ⟨behind, stripped, rfl⟩ := place
      · obtain ⟨kind, stuck⟩ := exists_stuck_of_stop found left comma semicolon
        exact stuck.length_lt
      · have bound := (strip_suffix behind).length_le
        rw [stripped, List.length_cons] at within
        omega

/-- Where nothing comes behind a command, reading stops there. -/
theorem eq_of_result_onward {last : List Char}
    (onwards : (onward rest).result = some (([], []), last)) : last = rest := by
  by_cases comma : (strip rest).head? = some ','
  · obtain ⟨value, left, found⟩ := exists_result_phrase (passOver ',' rest)
    rw [result_onward_of_comma comma found] at onwards
    simp at onwards
  by_cases stop : (strip rest).head? = some ';' → (trigger (passOver ';' rest)).result = none
  · rw [result_onward_of_stop comma stop] at onwards
    cases onwards
    rfl
  · push Not at stop
    obtain ⟨semicolon, begun⟩ := stop
    obtain ⟨⟨kind, middle⟩, begun⟩ := Option.ne_none_iff_exists'.mp begun
    obtain ⟨value, left, found⟩ := exists_result_phrase (strip middle)
    rw [result_onward_of_semicolon semicolon begun found] at onwards
    simp at onwards

/-- From a command on, an accepted text leads to its last command. -/
theorem Leads.exists_last {lead : List Char} {state : List Clause × Trigger × List Phrase}
    {clauses : List Clause} (leads : Leads lead state text.head?)
    (found : (phrase text).result = some (value, rest)) (accepted : read (lead ++ text) = .ok clauses) :
    ∃ longer body later last left, lead ++ text = longer ++ body ∧ Leads longer later body.head? ∧
      (phrase body).result = some (last, left) ∧ Closes left ∧
      joined later ([last], []) = clauses := by
  induction length : text.length using Nat.strong_induction_on generalizing lead state text value
    rest with
  | _ size ih =>
    subst length
    have within := (strip_suffix rest).length_le.trans (Forward.length_le found)
    obtain ⟨next, left, enters⟩ | ⟨comma, stop⟩ := enters_or_stops rest
    · obtain ⟨other, read⟩ := enters.found
      obtain ⟨longer, later, same, leadsNext⟩ := enters.leads leads found
      rw [same] at accepted ⊢
      exact ih _ (enters.shorter.trans_le within) leadsNext read accepted rfl
    · have onwards := result_onward_of_stop comma stop
      obtain ⟨closes, same⟩ := (leads.read_eq_ok_iff rfl found onwards).mp accepted
      exact ⟨lead, text, state, value, rest, rfl, leads, found, closes, same⟩

/-- A text that is accepted with clauses has a last command. -/
theorem exists_last_command {clauses : List Clause} (accepted : read text = .ok clauses)
    (nonempty : clauses ≠ []) :
    ∃ lead body state value rest, text = lead ++ body ∧ Leads lead state body.head? ∧
      (phrase body).result = some (value, rest) ∧ Closes rest ∧
      joined state ([value], []) = clauses := by
  cases begun : (trigger (strip text)).result with
  | none =>
    obtain ⟨last, list, -⟩ := read_eq_ok_iff.mp accepted
    rw [result_separated_of_none (result_clause_of_none begun)] at list
    cases list
    exact absurd rfl nonempty
  | some pair =>
    obtain ⟨lead, whole, leads⟩ := exists_leads_of_trigger begun
    obtain ⟨value, rest, found⟩ := exists_result_phrase (strip pair.2)
    rw [whole] at accepted
    obtain ⟨longer, body, later, last, left, same, rest⟩ := leads.exists_last found accepted
    exact ⟨longer, body, later, last, left, whole.trans same, rest⟩

/-- What is missed furthest is viable where it is missed, or it is missed within a command at which
reading is stuck. -/
inductive Placed (before after : List Char) (item : Expected) : Prop
  | viable (viable : Viable before item)
  | stuck {lead text rest : List Char} {state : List Clause × Trigger × List Phrase}
      {kind : CommandKind} (whole : before ++ after = lead ++ text)
      (leads : Leads lead state text.head?) (stuck : Stuck kind text rest)
      (within : after.length ≤ (strip rest).length)
      (missed : (after, item) ∈ outside 0 (phraseOf kind text).trace ∨
        after = strip rest ∧ item ∈ [.literal ",", .literal ";", .endOfInput])

/-- Behind semicolons, a trigger makes an accepted text. -/
theorem exists_read_of_trigger {lead front gap between more : List Char} {kind : Trigger}
    {state : List Clause × Trigger × List Phrase}
    (leads : Leads lead state (front ++ ';' :: (between ++ more)).head?)
    (read : (phrase (front ++ ';' :: (between ++ more))).result =
      some (value, gap ++ ';' :: (between ++ more)))
    (start : strip (gap ++ ';' :: (between ++ more)) = ';' :: (between ++ more))
    (behind : passOver ';' (between ++ more) = kind.word.toList) :
    ∃ clauses, Grammar.read (lead ++ front ++ ';' :: between ++ more) = .ok clauses := by
  have passed : passOver ';' (gap ++ ';' :: (between ++ more)) = kind.word.toList := by
    rw [← passOver_strip, start, passOver_cons, behind]
  have begun : (trigger (passOver ';' (gap ++ ';' :: (between ++ more)))).result =
      some (kind, []) := by
    have word := result_trigger_word kind []
    rwa [List.append_nil, ← passed] at word
  have last : (phrase (strip [])).result = some (.unrecognized "", []) := by decide +kernel
  have go := result_onward_of_semicolon (by rw [start]; rfl) begun last
  have ended : (onward []).result = some (([], []), []) :=
    result_onward_of_stop (by decide) (by decide)
  rw [ended] at go
  have accepted := leads.read_eq_ok rfl read go (.inl rfl)
  exact ⟨_, by simpa using accepted⟩

/-- Behind a command and semicolons, another semicolon or a trigger is viable. -/
theorem Leads.viable_of_semicolons {lead front gap behind : List Char} {item : Expected}
    {state : List Clause × Trigger × List Phrase}
    (leads : Leads lead state (front ++ ';' :: behind).head?)
    (start : ∀ more, strip (gap ++ ';' :: more) = ';' :: more)
    (read : ∀ more, (phrase (front ++ ';' :: more)).result = some (value, gap ++ ';' :: more))
    (kinds : item = .literal ";" ∨ ∃ kind : Trigger, item = .literal kind.word) :
    ∃ before, lead ++ (front ++ ';' :: behind) = before ++ passOver ';' behind ∧
      Viable before item := by
  obtain ⟨between, cut, marks, -⟩ := exists_dropWhile_eq (fun c => isSpace c || c == ';') behind
  change behind = between ++ passOver ';' behind at cut
  have accepts (more : List Char) (kind : Trigger) (word : passOver ';' more = kind.word.toList) :
      ∃ clauses, Grammar.read (lead ++ front ++ ';' :: between ++ more) = .ok clauses := by
    refine exists_read_of_trigger (head?_append_cons front ';' behind (between ++ more) ▸ leads)
      (read (between ++ more)) (start (between ++ more)) (?_ : _ = kind.word.toList)
    rw [passOver, List.dropWhile_append_of_pos marks]
    exact word
  refine ⟨lead ++ front ++ ';' :: between, by simp [← cut], ?_⟩
  obtain rfl | ⟨kind, rfl⟩ := kinds
  · exact ⟨";create".toList, ⟨"create".toList, rfl⟩, accepts _ .create (by decide)⟩
  · refine ⟨kind.word.toList, List.prefix_refl _, accepts _ kind ?_⟩
    exact (solid_trigger rfl).passOver (by decide)

/-- Behind a command and one semicolon, the end is viable. -/
theorem Leads.viable_endOfInput_of_semicolon {lead front gap : List Char}
    {state : List Clause × Trigger × List Phrase} (behind : List Char)
    (leads : Leads lead state (front ++ ';' :: behind).head?)
    (start : ∀ more, strip (gap ++ ';' :: more) = ';' :: more)
    (read : ∀ more, (phrase (front ++ ';' :: more)).result = some (value, gap ++ ';' :: more)) :
    ∃ before, lead ++ (front ++ ';' :: behind) = before ++ strip behind ∧
      Viable before .endOfInput := by
  obtain ⟨spaces, cut, blanks, -⟩ := exists_dropWhile_eq isSpace behind
  change behind = spaces ++ strip behind at cut
  have passed : passOver ';' (gap ++ ';' :: spaces) = [] := by
    rw [← passOver_strip, start, passOver_cons, passOver, List.dropWhile_eq_nil_iff]
    exact fun c member => by simp [blanks c member]
  have onwards : (onward (gap ++ ';' :: spaces)).result = some (([], []), gap ++ ';' :: spaces) :=
    result_onward_of_stop (by simp [start]) fun _ => by rw [passed]; decide
  have closes : Closes (gap ++ ';' :: spaces) :=
    .inr ⟨spaces, start spaces, List.all_eq_true.mpr blanks⟩
  have accepted := leads.read_eq_ok (head?_append_cons front ';' _ _) (read spaces) onwards closes
  refine ⟨lead ++ front ++ ';' :: spaces, by simp [← cut], [], rfl, ?_⟩
  exact ⟨_, by simpa using accepted⟩

/-- Behind a command and semicolons without a trigger, what is missed furthest is viable. -/
theorem viable_of_semicolon {lead after : List Char} {item : Expected}
    {state : List Clause × Trigger × List Phrase} (leads : Leads lead state text.head?)
    (found : (phrase text).result = some (value, rest)) {behind : List Char}
    (stripped : strip rest = ';' :: behind)
    (none : (trigger (passOver ';' rest)).result = none)
    (missed : MissedFrom text rest after item) (within : after.length ≤ behind.length) :
    ∃ before, lead ++ text = before ++ after ∧ Viable before item := by
  obtain ⟨front, gap, rfl, -, start, settled, read⟩ :=
    exists_settled_front (by decide) found stripped
  have comma : (strip rest).head? ≠ some ',' := by simp [stripped]
  have passed : passOver ';' rest = passOver ';' behind := by
    rw [← passOver_strip, stripped, passOver_cons]
  obtain inside | later := missed
  · have bound := length_le_of_mem_settled settled (Stops.at_cons (by decide) behind) inside
    rw [List.length_cons] at bound
    omega
  · rw [mem_outside_finish_of_stop comma fun _ => none] at later
    obtain first | second | third := later
    · rw [(of_mem_morePhrases comma first).1, stripped, List.length_cons] at within
      omega
    · have front : (strip rest).head? = some ';' := by simp [stripped]
      rw [mem_outside_followers_semicolon_iff front,
        mem_outside_someClauses_of_none none, passed] at second
      obtain separator | word := second
      · obtain ⟨same, rfl⟩ := eq_of_mem_separators (d := ';') rfl separator
        rw [same, passed]
        exact leads.viable_of_semicolons start read (.inl rfl)
      · obtain ⟨rfl, kinds⟩ := of_mem_trigger word
        exact leads.viable_of_semicolons start read (.inr kinds)
    · obtain ⟨other, -⟩ | ⟨behind, same, rfl, rfl⟩ := of_mem_closing third
      · exact absurd (by simp [stripped]) other
      · rw [stripped] at same
        cases same
        exact leads.viable_endOfInput_of_semicolon behind start read

/-- What is missed furthest in a command or behind it has its place there. -/
theorem exists_placed {lead after : List Char} {item : Expected}
    {state : List Clause × Trigger × List Phrase} (leads : Leads lead state text.head?)
    (found : (phrase text).result = some (value, rest)) (rejected : (finish rest).result = none)
    (missed : MissedFrom text rest after item)
    (furthest : ∀ other item, MissedFrom text rest other item → after.length ≤ other.length) :
    ∃ before, lead ++ text = before ++ after ∧ Placed before after item := by
  induction length : text.length using Nat.strong_induction_on generalizing lead state text value
    rest with
  | _ size ih =>
    subst length
    have part := Forward.suffix found
    have within := (strip_suffix rest).length_le.trans part.length_le
    obtain ⟨next, left, enters⟩ | ⟨comma, stop⟩ := enters_or_stops rest
    · obtain ⟨other, read⟩ := enters.found
      obtain ⟨longer, later, same, leadsNext⟩ := enters.leads leads found
      have rejectedNext := enters.finish_iff.mp rejected
      -- Something is missed behind the beginning of the next command, and so is what is furthest.
      obtain ⟨_, _, inside, less⟩ := exists_missedFrom_length_lt read rejectedNext
      have bound := furthest _ _ (.inr (enters.missed inside))
      have shorter := enters.shorter
      have missedNext : MissedFrom next left after item := by
        obtain first | second := missed
        · obtain ⟨d, separator, front⟩ := enters.front
          obtain ⟨behind, stripped⟩ := List.head?_eq_some_iff.mp front
          obtain ⟨front, -, rfl, -, -, settled, -⟩ :=
            exists_settled_front separator found stripped
          have reached := length_le_of_mem_settled settled (Stops.at_cons separator behind) first
          rw [stripped] at shorter
          omega
        · refine (enters.cases second).resolve_left fun before => ?_
          omega
      rw [same]
      exact ih _ (by omega) leadsNext read rejectedNext missedNext
        (fun _ _ member => furthest _ _ (.inr (enters.missed member))) rfl
    · have onwards := result_onward_of_stop comma stop
      have left := (result_finish_eq_none_iff onwards).mp rejected
      obtain ⟨closed, ended, place⟩ := exists_mem_closing left
      have bound := furthest _ _ (.inr ((mem_outside_finish_iff onwards).mpr (.inr ended)))
      obtain ⟨semicolon, rfl⟩ | ⟨behind, stripped, rfl⟩ := place
      · obtain ⟨kind, stuck⟩ := exists_stuck_of_stop found left comma semicolon
        have less := stuck.length_lt
        obtain ⟨before, whole⟩ := missed.suffix found
        refine ⟨lead ++ before, by rw [← whole, List.append_assoc], ?_⟩
        refine .stuck (by rw [List.append_assoc, whole]) leads stuck bound ?_
        refine missed.imp (fun inside => mem_phraseOf_of_mem_phrase stuck inside fun same => ?_)
          fun behindIt => ?_
        · rw [same] at bound
          omega
        · exact of_mem_finish_of_stop comma semicolon behindIt
      · obtain ⟨before, whole, viable⟩ := viable_of_semicolon leads found stripped
          (stop (by rw [stripped]; rfl)) missed (bound.trans (strip_suffix behind).length_le)
        exact ⟨before, whole, .viable viable⟩

/-- A list of clauses is missed like its first clause and those behind it. -/
theorem mem_outside_clauses_iff {value : List Clause} {after : List Char} {item : Expected}
    (found : (separated ";" clause text).result = some (value, rest)) :
    (after, item) ∈ outside 0 (clauses text).trace ↔
      (after, item) ∈ outside 0 (someClauses (strip text)).trace ∨
        (after, item) ∈ outside 0 (closing () rest).trace := by
  have same : (closing value rest).trace = (closing () rest).trace := by
    simp [closing, trace_bind]
  have list : (after, item) ∈ outside 0 (separated ";" clause text).trace ↔
      (after, item) ∈ outside 0 (someClauses (strip text)).trace := by
    rw [someClauses, mem_outside_bind_iff]
    cases first : (clause (strip text)).result with
    | none =>
      rw [separated, mem_outside_bind_iff, mem_outside_spacedOptional_iff]
      simp [spacedOptional, result_optional, first, outside]
    | some pair =>
      obtain ⟨value, rest⟩ := pair
      rw [mem_outside_separated_iff first]
      simp [mem_outside_map_iff]
  change _ ∈ outside 0 ((separated ";" clause >>= closing) text).trace ↔ _
  rw [mem_outside_bind_iff, list]
  simp [found, same]

/-- A text without clauses that is closed is accepted. -/
theorem read_of_closes (none : (trigger (strip text)).result = none) (closes : Closes text) :
    read text = .ok [] := by
  refine read_eq_ok_iff.mpr ⟨text, ?_, closes⟩
  rw [result_separated_of_none (result_clause_of_none none)]

/-- A trigger behind spaces is accepted. -/
theorem exists_read_trigger {gap : List Char} (spaces : ∀ c ∈ gap, isSpace c = true)
    (kind : Trigger) : ∃ clauses, read (gap ++ kind.word.toList) = .ok clauses := by
  have stripped : strip (gap ++ kind.word.toList) = kind.word.toList := by
    rw [strip, List.dropWhile_append_of_pos spaces]
    exact (solid_trigger rfl).strip
  have begun : (trigger (strip (gap ++ kind.word.toList))).result = some (kind, []) := by
    have word := result_trigger_word kind []
    rwa [List.append_nil, ← stripped] at word
  obtain ⟨lead, whole, leads⟩ := exists_leads_of_trigger begun
  have last : (phrase []).result = some (.unrecognized "", []) := by decide +kernel
  have ended : (onward []).result = some (([], []), []) :=
    result_onward_of_stop (by decide) (by decide)
  have accepted := leads.read_eq_ok rfl last ended (.inl rfl)
  exact ⟨_, by rw [whole]; exact accepted⟩

/-- The end is viable behind what closes a text without clauses. -/
theorem viable_endOfInput_of_closes {before : List Char}
    (none : (trigger (strip before)).result = none) (closes : Closes before) :
    Viable before .endOfInput := by
  refine ⟨[], rfl, [], ?_⟩
  rw [List.append_nil]
  exact read_of_closes none closes

/-- Behind spaces, a trigger, a semicolon and the end are viable. -/
theorem viable_of_spaces {before : List Char} {item : Expected}
    (spaces : ∀ c ∈ before, isSpace c = true)
    (items : (∃ kind : Trigger, item = .literal kind.word) ∨ item = .literal ";" ∨
      item = .endOfInput) : Viable before item := by
  obtain ⟨kind, rfl⟩ | rfl | rfl := items
  · exact ⟨kind.word.toList, List.prefix_refl _, exists_read_trigger spaces kind⟩
  · have stripped : strip (before ++ [';']) = [';'] := by
      rw [strip, List.dropWhile_append_of_pos spaces]
      rfl
    exact ⟨[';'], List.prefix_refl _, [], read_of_closes (by rw [stripped]; decide)
      (.inr ⟨[], stripped, rfl⟩)⟩
  · have blanks : blank before = true := List.all_eq_true.mpr spaces
    exact viable_endOfInput_of_closes (by rw [strip_eq_nil_iff.mpr blanks]; decide) (.inl blanks)

/-- What is missed furthest in a text without clauses is viable. -/
theorem viable_of_no_clause {before after : List Char} {item : Expected}
    (none : (trigger (strip (before ++ after))).result = none)
    (left : ¬Closes (before ++ after))
    (missed : (after, item) ∈ outside 0 (clauses (before ++ after)).trace)
    (furthest : ∀ other item, (other, item) ∈ outside 0 (clauses (before ++ after)).trace →
      after.length ≤ other.length) : Viable before item := by
  have list : (separated ";" clause (before ++ after)).result = some ([], before ++ after) :=
    result_separated_of_none (result_clause_of_none none)
  obtain ⟨closed, ended, place⟩ := exists_mem_closing left
  have bound := furthest _ _ ((mem_outside_clauses_iff list).mpr (.inr ended))
  obtain ⟨gap, cut, spaces, -⟩ := exists_dropWhile_eq isSpace (before ++ after)
  change before ++ after = gap ++ strip (before ++ after) at cut
  rw [mem_outside_clauses_iff list, mem_outside_someClauses_of_none none] at missed
  obtain ⟨semicolon, -⟩ | ⟨behind, stripped, rfl⟩ := place
  · have here : after = strip (before ++ after) ∧ ((∃ kind : Trigger, item = .literal kind.word) ∨
        item = .literal ";" ∨ item = .endOfInput) := by
      obtain word | last := missed
      · exact ⟨(of_mem_trigger word).1, .inl (of_mem_trigger word).2⟩
      · obtain ⟨-, same, items⟩ | ⟨behind, stripped, -⟩ := of_mem_closing last
        · exact ⟨same, .inr items⟩
        · exact absurd (by rw [stripped]; rfl) semicolon
    rw [← here.1] at cut
    obtain rfl := List.append_cancel_right cut
    exact viable_of_spaces spaces here.2
  · obtain ⟨between, cutBehind, blanks, -⟩ := exists_dropWhile_eq isSpace behind
    change behind = between ++ strip behind at cutBehind
    have shorter := (strip_suffix behind).length_le
    have here : after = strip behind ∧ item = .endOfInput := by
      obtain word | last := missed
      · rw [(of_mem_trigger word).1, stripped, List.length_cons] at bound
        omega
      · obtain ⟨other, -⟩ | ⟨_, again, same, rfl⟩ := of_mem_closing last
        · exact absurd (by rw [stripped]; rfl) other
        · rw [stripped] at again
          cases again
          exact ⟨same, rfl⟩
    obtain ⟨rfl, rfl⟩ := here
    have front : before = gap ++ ';' :: between := by
      refine (List.append_left_inj (strip behind)).mp ?_
      rw [cut, stripped, List.append_assoc, List.cons_append, ← cutBehind]
    have start : strip before = ';' :: between := by
      rw [front, strip, List.dropWhile_append_of_pos spaces]
      rfl
    exact viable_endOfInput_of_closes (by rw [start]; rfl)
      (.inr ⟨between, start, List.all_eq_true.mpr blanks⟩)

/-- What is missed furthest in a rejected text has its place there. -/
theorem placed_of_rejected {before after : List Char} {item : Expected}
    (rejected : (clauses (before ++ after)).result = none)
    (missed : (after, item) ∈ outside 0 (clauses (before ++ after)).trace)
    (furthest : ∀ other item, (other, item) ∈ outside 0 (clauses (before ++ after)).trace →
      after.length ≤ other.length) : Placed before after item := by
  cases begun : (trigger (strip (before ++ after))).result with
  | none =>
    have list : (separated ";" clause (before ++ after)).result = some ([], before ++ after) :=
      result_separated_of_none (result_clause_of_none begun)
    have left : ¬Closes (before ++ after) := fun closes => by
      have read := result_clauses_eq_some_iff.mpr ⟨rfl, _, list, closes⟩
      rw [rejected] at read
      cases read
    exact .viable (viable_of_no_clause begun left missed furthest)
  | some pair =>
    obtain ⟨kind, middle⟩ := pair
    obtain ⟨lead, whole, leads⟩ := exists_leads_of_trigger begun
    obtain ⟨value, rest, found⟩ := exists_result_phrase (strip middle)
    obtain ⟨more, last, onwards⟩ := exists_result_onward rest
    have first := result_someClauses begun found
    have list : (separated ";" clause (before ++ after)).result =
        some (⟨kind, value :: more.1⟩ :: more.2, last) := by
      rw [result_separated_eq, first, onwards]
      rfl
    have members (other : List Char) (item : Expected) :
        (other, item) ∈ outside 0 (clauses (before ++ after)).trace ↔
          (other, item) ∈ outside 0 (trigger (strip (before ++ after))).trace ∨
            MissedFrom (strip middle) rest other item := by
      rw [mem_outside_clauses_iff list, mem_outside_someClauses_iff begun found, MissedFrom,
        mem_outside_finish_iff onwards, or_assoc, or_assoc]
    have rejectedRest : (finish rest).result = none := by
      rw [result_finish_eq_none_iff onwards]
      intro closes
      have read := result_clauses_eq_some_iff.mpr ⟨rfl, _, list, closes⟩
      rw [rejected] at read
      cases read
    obtain ⟨_, _, inside, less⟩ := exists_missedFrom_length_lt found rejectedRest
    have bound := furthest _ _ ((members _ _).mpr (.inr inside))
    have missedFrom : MissedFrom (strip middle) rest after item := by
      refine ((members _ _).mp missed).resolve_left fun word => ?_
      have left := (strip_suffix middle).length_le.trans (Forward.length_le begun)
      rw [(of_mem_trigger word).1] at bound
      omega
    obtain ⟨front, same, placed⟩ := exists_placed leads found rejectedRest missedFrom
      fun other item member => furthest _ _ ((members _ _).mpr (.inr member))
    rw [← whole] at same
    rwa [List.append_cancel_right same]

end ActionString.Grammar
