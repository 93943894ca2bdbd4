import ActionString.Proofs.Animating
import ActionString.Proofs.CatchAll
import ActionString.Proofs.Diagnostics
import ActionString.Proofs.LastCommand
import ActionString.Proofs.Worlds
import ActionString.Proofs.Yields

/-!
# What is expected is viable

Where a source is rejected, each item of its diagnostic is viable: the cleaned source up to the
failure can be continued with the item, or with what it describes, to an accepted text. There is one
exception. A word of the flag among the options of an animation counts only as a whole, so behind
such a word behind the texture another option or a number is listed, but can come only after a space.
-/

namespace ActionString

namespace Grammar

open Rule Word

variable {text rest before after : List Char} {item : Expected} {kind : CommandKind}

/-! ### The kinds of commands -/

/-- The command that describes an object is its word. -/
theorem resumes_examine : Resumes (phraseOf .examine) := by
  refine .keyword (by decide) fun _ => ?_
  intro before after value rest item found _ _ looked
  obtain misses | ⟨rfl, left⟩ := looked
  · exact absurd misses Misses.not_pure
  · obtain ⟨-, rfl⟩ : _ ∧ rest = before ++ after := by simpa [eq_comm] using found
    exact completes_endOfInput_iff.mpr ⟨_, before, rfl, blank_of_strip_append left.symm⟩

/-- A command that texts are not arguments of, other than an animation, completes texts. -/
theorem resumes_of_recognized (known : kind ∈ CommandKind.recognized) (animate : kind ≠ .animate)
    (say : kind ≠ .say) (sign : kind ≠ .sign) : Resumes (phraseOf kind) := by
  rw [CommandKind.mem_recognized_iff] at known
  cases kind
  case animate => exact absurd rfl animate
  case say => exact absurd rfl say
  case sign => exact absurd rfl sign
  case invalid => exact absurd rfl known
  case examine => exact resumes_examine
  case color => exact resumes_color
  case seq => exact resumes_seq
  case light => exact resumes_light
  case warp => exact resumes_warp
  case teleport => exact resumes_teleport
  case opacity | ambient | diffuse | specular => exact resumes_level (by decide)
  case solid | name | visible => exact resumes_of_target (by decide)
  case move | rotate | scale => exact resumes_of_axes (by decide)
  all_goals exact resumes_of_path (by decide)

/-- A text begins wherever neither a space nor a separator comes. -/
theorem isSome_text {c : Char} (solid : isSpace c = false) (other : c ∉ Stops.both.chars)
    (rest : List Char) : (Word.text (c :: rest)).result.isSome = true := by
  have plain : CharClass.plainText.accepts c = true := by
    have space : c ≠ ' ' := by
      rintro rfl
      cases solid
    have apart : c ≠ ';' ∧ c ≠ ',' := by
      constructor <;> rintro rfl <;> exact other (by decide)
    simp [CharClass.accepts, space, apart]
  rw [Word.text, result_firstOf_cons, Option.isSome_or, result_firstOf_cons, Option.isSome_or,
    isSome_chars]
  simp [plain]

/-- Reading is not stuck in a command that texts are arguments of. -/
theorem Stuck.ne_text (stuck : Stuck kind text rest) : kind ≠ .say ∧ kind ≠ .sign := by
  obtain ⟨value, found⟩ := stuck.found
  obtain ⟨c, after, stripped, other⟩ := stuck.stopped
  have made := isSome_make ActionString.Argument.text
    (isSome_text (isSpace_of_strip stripped) other after)
  have missed {argument : Rule Argument} [Built argument] [Consuming argument]
      (found : (withArguments kind argument text).result = some (value, rest)) :
      (argument (c :: after)).result = none := by
    rw [withArguments, result_bind, Option.bind_eq_some_iff] at found
    obtain ⟨⟨word, middle⟩, -, found⟩ := found
    rw [result_bind, Option.bind_eq_some_iff] at found
    obtain ⟨⟨arguments, last⟩, read, same⟩ := found
    cases same
    rw [← stripped]
    exact missed_of_spacedMany read
  constructor
  · rintro rfl
    have none : (Argument.say (c :: after)).result = none := missed found
    rw [Argument.say, ← Option.not_isSome_iff_eq_none] at none
    exact none made
  · rintro rfl
    have none : (Argument.sign (c :: after)).result = none := missed found
    rw [Argument.sign, ← Option.not_isSome_iff_eq_none] at none
    exact none (isSome_firstOf_of_mem (by simp) made)

/-- A command of a recognised kind is read as one of that kind. -/
theorem result_phrase_of_phraseOf (known : kind ∈ CommandKind.recognized)
    {found : Phrase × List Char} (read : (phraseOf kind text).result = some found) :
    (phrase text).result = some found := by
  obtain ⟨spelt, body, rfl, same⟩ := exists_spelt_of_phraseOf known read
  rw [result_phrase_of_same known same, read, Option.some_or]

/-- What a command at the end of a text is read as, is read as the last command of the text. -/
theorem Leads.read_last {lead body : List Char} {state : List Clause × Trigger × List Phrase}
    {first : Option Char} (leads : Leads lead state first) (begins : body.head? = first)
    {value : Phrase} (found : (phrase body).result = some (value, rest)) (ended : blank rest = true) :
    read (lead ++ body) = .ok (state.1 ++ [⟨state.2.1, state.2.2 ++ [value]⟩]) := by
  have empty : strip rest = [] := strip_eq_nil_iff.mpr ended
  have onwards : (onward rest).result = some (([], []), rest) :=
    result_onward_of_stop (by simp [empty]) (by simp [empty])
  exact leads.read_eq_ok begins found onwards (.inl ended)

/-- Behind a command that leaves a separator, the separator is viable. -/
theorem Leads.viable_of_separator {lead body : List Char}
    {state : List Clause × Trigger × List Phrase} (leads : Leads lead state body.head?)
    (nonempty : body ≠ []) {value : Phrase} (ended : blank rest = true)
    (found : ∀ d ∈ Stops.both.chars, (phrase (body ++ [d])).result = some (value, rest ++ [d]))
    (separator : item ∈ [Expected.literal ",", .literal ";"]) : Viable (lead ++ body) item := by
  have begins (d : Char) : (body ++ [d]).head? = body.head? := by
    obtain ⟨c, others, rfl⟩ := List.exists_cons_of_ne_nil nonempty
    rfl
  have stripped {d : Char} (solid : isSpace d = false) : strip (rest ++ [d]) = [d] := by
    rw [strip_append_of_blank ended]
    exact strip_cons_of_not solid []
  have passed {d : Char} (solid : isSpace d = false) : passOver d (rest ++ [d]) = [] := by
    rw [← passOver_strip, stripped solid, passOver_cons]
    rfl
  obtain rfl | rfl : item = .literal "," ∨ item = .literal ";" := by simpa using separator
  · have last : (phrase []).result = some (.unrecognized "", []) := by decide +kernel
    have none : (onward []).result = some (([], []), []) :=
      result_onward_of_stop (by decide) (by decide)
    have next : (phrase (passOver ',' (rest ++ [',']))).result = some (.unrecognized "", []) := by
      rw [passed rfl, last]
    have onwards := result_onward_of_comma (by rw [stripped rfl]; rfl) next
    rw [none] at onwards
    have accepted := leads.read_eq_ok (begins ',') (found ',' (by decide)) onwards (.inl rfl)
    exact ⟨[','], List.prefix_refl _, _, by rw [List.append_assoc, accepted]⟩
  · have onwards : (onward (rest ++ [';'])).result = some (([], []), rest ++ [';']) :=
      result_onward_of_stop (by rw [stripped rfl]; decide) (fun _ => by rw [passed rfl]; decide)
    have accepted := leads.read_eq_ok (begins ';') (found ';' (by decide)) onwards
      (.inr ⟨[], stripped rfl, rfl⟩)
    exact ⟨[';'], List.prefix_refl _, _, by rw [List.append_assoc, accepted]⟩

/-- A text is accepted with an animation at its end, and so it is with a word of the flag behind it,
which is another option of the animation. -/
def BehindMask (before : List Char) : Prop :=
  ∃ front word clauses trigger phrases animation, before = front ++ word.toList ∧ word ∈ maskWords ∧
    read front = .ok (clauses ++ [⟨trigger, phrases ++ [.animate animation]⟩]) ∧
    read before = .ok (clauses ++ [⟨trigger, phrases ++ [.animate { animation with
      options := animation.options ++ [.status .mask word] }]⟩])

/-- A text that a command is read from begins alike with more behind it. -/
theorem head?_append_of_phraseOf (known : kind ∈ CommandKind.recognized)
    {found : Phrase × List Char} (read : (phraseOf kind text).result = some found)
    (more : List Char) : (text ++ more).head? = text.head? := by
  obtain ⟨spelt, tail, rfl, same⟩ := exists_spelt_of_phraseOf known read
  obtain ⟨d, head, -⟩ := solid_kind same
  obtain ⟨others, rfl⟩ := List.head?_eq_some_iff.mp head
  rfl

/-- Only the rule for animations reads one. -/
theorem eq_animate_of_result {made : Animation}
    (found : (phraseOf kind text).result = some (.animate made, rest)) : kind = .animate := by
  have yields : Yields (fun phrase => ∀ made, phrase = .animate made → kind = .animate)
      (phraseOf kind) := by
    cases kind
    case animate => exact fun _ _ _ _ _ _ => rfl
    case examine => exact .after _ fun _ => .pure nofun
    case teleport => exact .after _ fun _ => .after _ fun _ => .after _ fun _ => .pure nofun
    case warp => exact .after _ fun _ => .after _ fun _ => .pure nofun
    case invalid => exact .after _ fun _ => .pure nofun
    all_goals exact .after _ fun _ => .after _ fun _ => .pure nofun
  exact yields found made rfl

/-- An animation among the commands is read by its rule. -/
theorem result_phraseOf_animate {made : Animation}
    (found : (phrase text).result = some (.animate made, rest)) :
    (phraseOf .animate text).result = some (.animate made, rest) := by
  obtain ⟨kind, -, read⟩ := exists_of_result_firstOf_map found
  rwa [eq_animate_of_result read] at read

/-- What can come at the end of a text ends with a space or a semicolon. -/
theorem Closes.of_getLast? {c : Char} (closes : Closes text) (last : text.getLast? = some c) :
    isSpace c = true ∨ c = ';' := by
  obtain blanks | ⟨behind, stripped, blanks⟩ := closes
  · exact .inl (List.all_eq_true.mp blanks c (List.mem_of_getLast? last))
  · obtain ⟨gap, whole⟩ := strip_suffix text
    rw [← whole, stripped, List.getLast?_append_of_ne_nil _ (List.cons_ne_nil _ _)] at last
    obtain rfl | member := List.mem_cons.mp (List.mem_of_getLast? last)
    · exact .inr rfl
    · exact .inl (List.all_eq_true.mp blanks c member)

/-- Nothing is left of a text with a word of the flag at its end when what is left can come at the
end. -/
theorem eq_nil_of_closes {word : String} (member : word ∈ maskWords) {body : List Char}
    (part : rest <:+ body ++ word.toList) (closes : Closes rest) : rest = [] := by
  by_contra nonempty
  obtain ⟨start, whole⟩ := part
  have ends : ∀ mask ∈ maskWords, mask.toList.getLast? = some 'k' := by decide
  have last : rest.getLast? = some 'k' := by
    have same := congrArg List.getLast? whole
    rwa [List.getLast?_append_of_ne_nil _ nonempty, List.getLast?_append, ends word member] at same
  obtain space | same := closes.of_getLast? last
  · cases space
  · cases same

/-- Where nothing is left behind a command with more behind it, only spaces are left behind the command
by itself. -/
theorem blank_of_closes {value other : Phrase} {more : List Char}
    (found : (phrase text).result = some (value, rest)) (closes : Closes rest)
    (longer : (phrase (text ++ more)).result = some (other, [])) : blank rest = true := by
  obtain blanks | ⟨behind, stripped, -⟩ := closes
  · exact blanks
  · obtain ⟨front, gap, rfl, -, -, -, read⟩ := exists_settled_front (by decide) found stripped
    rw [List.append_assoc, List.cons_append, read] at longer
    simp at longer

/-- Behind a lead, an animation that ends with a word of the flag is not read to the end with a
character of a file name behind that word. -/
theorem Leads.read_ne_ok_of_mask {lead body front : List Char} {word : String} {made : Animation}
    {state : List Clause × Trigger × List Phrase} (leads : Leads lead state body.head?)
    (mask : EndsWithMask (phraseOf .animate) body front word made) {c : Char}
    (glued : CharClass.fileName.accepts c = true) (more : List Char) (clauses : List Clause) :
    read (lead ++ body ++ c :: more) ≠ .ok clauses := by
  intro accepted
  -- What is left begins with the word of the flag, which comes neither next nor at the end.
  obtain ⟨rest, found, stripped⟩ := mask.exists_animate_of_glued glued more
  obtain ⟨d, others, spelling, letter⟩ := exists_cons_of_mem_maskWords mask.member
  have letters : ∀ d ∈ ['m', 'n'], d ≠ ',' ∧ d ≠ ';' := by decide
  obtain ⟨comma, semicolon⟩ := letters d letter
  have front_eq : (strip rest).head? = some d := by rw [stripped, spelling]; rfl
  have onwards : (onward rest).result = some (([], []), rest) :=
    result_onward_of_stop (by simp [front_eq, comma]) (by simp [front_eq, semicolon])
  have begins : (body ++ c :: more).head? = body.head? := by
    rw [mask.whole, spelling, List.append_assoc]
    exact head?_append_cons front d _ _
  rw [List.append_assoc, leads.read_eq_ok_iff begins
    (result_phrase_of_phraseOf (by decide) found) onwards] at accepted
  obtain ended | ⟨behind, start, -⟩ := accepted.1
  · rw [strip_eq_nil_iff.mpr ended] at front_eq
    cases front_eq
  · rw [start] at front_eq
    exact semicolon (Option.some.inj front_eq).symm

/-- Behind a word of the flag at the end of an animation, no text with a character of a file name is
accepted: the animation is read as without the word, and the word is left with the character. -/
theorem BehindMask.read_ne_ok (behind : BehindMask before) {c : Char}
    (glued : CharClass.fileName.accepts c = true) (more : List Char) (clauses : List Clause) :
    read (before ++ c :: more) ≠ .ok clauses := by
  obtain ⟨front, word, earlier, trigger, phrases, animation, rfl, member, first, second⟩ := behind
  -- The animation is the last command of the text before the word, and of the text with the word.
  obtain ⟨lead, body, ⟨sooner, kind, others⟩, value, rest, rfl, leads, found, closes, same⟩ :=
    exists_last_command first (by simp)
  obtain ⟨rfl, clause⟩ := List.append_inj' same rfl
  obtain ⟨rfl, commands⟩ := Clause.mk.inj (List.cons.inj clause).1
  obtain ⟨rfl, command⟩ := List.append_inj' commands rfl
  obtain rfl := (List.cons.inj command).1
  have animate := result_phraseOf_animate found
  have begins := head?_append_of_phraseOf (by decide) animate word.toList
  obtain ⟨next, left, longer⟩ := exists_result_phrase (body ++ word.toList)
  obtain ⟨⟨later, behind⟩, last, onwards⟩ := exists_result_onward left
  rw [List.append_assoc, leads.read_eq_ok_iff begins longer onwards] at second
  obtain ⟨closed, ended⟩ := second
  obtain ⟨⟨rfl, rfl⟩, rfl⟩ : (_ ∧ later = []) ∧ behind = [] := by
    simpa [joined] using ended
  obtain rfl := eq_of_result_onward onwards
  obtain rfl := eq_nil_of_closes member (Forward.suffix longer) closed
  have mask : EndsWithMask (phraseOf .animate) (body ++ word.toList) body word animation :=
    ⟨member, rfl, ⟨rest, animate, blank_of_closes found closes longer⟩,
      result_phraseOf_animate longer⟩
  rw [← begins] at leads
  rw [List.append_assoc lead body]
  exact leads.read_ne_ok_of_mask mask glued more clauses

/-- Behind a lead, an animation that ends with a word of the flag does so in the whole text. -/
theorem Leads.behindMask {lead body front : List Char} {word : String} {made : Animation}
    {state : List Clause × Trigger × List Phrase} (leads : Leads lead state body.head?)
    (mask : EndsWithMask (phraseOf .animate) body front word made) : BehindMask (lead ++ body) := by
  have known : CommandKind.animate ∈ CommandKind.recognized := by decide
  obtain ⟨last, found, ended⟩ := mask.found
  have same : body.head? = front.head? := by rw [mask.whole, head?_append_of_phraseOf known found]
  exact ⟨lead ++ front, word, _, _, _, made, by rw [mask.whole, List.append_assoc], mask.member,
    leads.read_last same.symm (result_phrase_of_phraseOf known found) ended,
    leads.read_last rfl (result_phrase_of_phraseOf known mask.ended) rfl⟩

/-- What begins another option or a number begins with a character of a file name. -/
theorem exists_glued {more : List Char} (member : item ∈ partItems) (opens : item.Opens more) :
    ∃ c rest, more = c :: rest ∧ CharClass.fileName.accepts c = true := by
  have literal {word : String} (opens : (Expected.literal word).Opens more) {c : Char}
      (begins : word.toList.head? = some c) (accepted : CharClass.fileName.accepts c = true) :
      ∃ c rest, more = c :: rest ∧ CharClass.fileName.accepts c = true := by
    obtain ⟨tail, rfl⟩ := opens
    obtain ⟨others, spelling⟩ := List.head?_eq_some_iff.mp begins
    exact ⟨c, others ++ tail, by rw [spelling]; rfl, accepted⟩
  have items : item ∈ [.charClass CharClass.digit.description, .literal "tag", .literal "mask",
    .literal "nomask"] := member
  simp only [List.mem_cons, List.not_mem_nil, or_false] at items
  obtain rfl | rfl | rfl | rfl := items
  · obtain ⟨kind, same, c, head, digit⟩ := opens
    obtain ⟨rest, rfl⟩ := List.head?_eq_some_iff.mp head
    rw [CharClass.description_injective same] at digit
    refine ⟨c, rest, rfl, ?_⟩
    have isDigit : c.isDigit = true := digit
    simp [CharClass.accepts, Text.isAlphanumeric, isDigit]
  · exact literal opens rfl (by decide)
  · exact literal opens rfl (by decide)
  · exact literal opens rfl (by decide)

/-- Behind a word of the flag, what begins another option or a number is not viable. -/
theorem BehindMask.not_viable (behind : BehindMask before) (member : item ∈ partItems) :
    ¬Viable before item := by
  rintro ⟨more, opens, clauses, accepted⟩
  obtain ⟨c, rest, rfl, glued⟩ := exists_glued member opens
  exact behind.read_ne_ok glued rest clauses accepted

/-- What is missed within a command at which reading is stuck is viable, unless it is missed behind
a word of the flag. -/
theorem viable_or_behindMask_of_stuck {lead : List Char}
    {state : List Clause × Trigger × List Phrase} (whole : before ++ after = lead ++ text)
    (leads : Leads lead state text.head?) (stuck : Stuck kind text rest)
    (within : after.length ≤ (strip rest).length)
    (missed : (after, item) ∈ outside 0 (phraseOf kind text).trace ∨
      after = strip rest ∧ item ∈ [.literal ",", .literal ";", .endOfInput]) :
    Viable before item ∨ BehindMask before ∧ item ∈ partItems := by
  obtain ⟨c, others, stripped, -⟩ := stuck.stopped
  have known := stuck.known
  have shorter := stuck.length_lt
  obtain ⟨say, sign⟩ := stuck.ne_text
  obtain ⟨value, found⟩ := stuck.found
  obtain ⟨body, rfl⟩ : after <:+ text :=
    List.suffix_of_suffix_length_le ⟨before, rfl⟩ ⟨lead, whole.symm⟩ (by omega)
  have nonempty : body ≠ [] := by
    rintro rfl
    rw [List.nil_append] at shorter
    omega
  obtain rfl : before = lead ++ body := by
    rw [← List.append_assoc] at whole
    exact List.append_cancel_right whole
  have begins (more : List Char) : (body ++ more).head? = body.head? := by
    obtain ⟨c, others, rfl⟩ := List.exists_cons_of_ne_nil nonempty
    rfl
  rw [begins] at leads
  have places {item : Expected} (looked : Misses (phraseOf kind) body after item ∨
      item = .endOfInput ∧ after = strip rest) :
      Completes (phraseOf kind) body item ∨ item ∈ partItems ∧
        ∃ front word made, EndsWithMask (phraseOf .animate) body front word made := by
    by_cases animate : kind = .animate
    · subst animate
      exact animate_completes_or_endsWithMask found within looked
    · exact .inl (resumes_of_recognized known animate say sign found (by simp [stripped]) within looked)
  -- Whatever completes the command completes the text.
  have completed {item : Expected} (completes : Completes (phraseOf kind) body item) :
      Viable (lead ++ body) item := by
    obtain ⟨more, value, last, opens, read, ended⟩ := completes
    have accepted := leads.read_last (begins more) (result_phrase_of_phraseOf known read) ended
    exact ⟨more, opens, _, by rw [List.append_assoc, accepted]⟩
  obtain inside | ⟨left, separators⟩ := missed
  · exact (places (.inl inside)).imp completed fun ⟨member, front, word, made, mask⟩ =>
      ⟨leads.behindMask mask, member⟩
  · have ended : Completes (phraseOf kind) body .endOfInput :=
      (places (.inr ⟨rfl, left⟩)).resolve_right fun mask => absurd mask.1 (by decide)
    left
    obtain separator | rfl : item ∈ [Expected.literal ",", .literal ";"] ∨ item = .endOfInput := by
      simpa [or_assoc] using separators
    · obtain ⟨value, last, read, ended⟩ := completes_endOfInput_iff.mp ended
      have settled : Settled (phraseOf kind) body := .of_worded (.phraseOf_of_ne known say sign) body
      have behind : ∀ d ∈ Stops.both.chars,
          (phrase (body ++ [d])).result = some (value, last ++ [d]) := fun d stop => by
        refine result_phrase_of_phraseOf known ?_
        rw [settled.result (Stops.at_cons stop []), read]
        rfl
      exact leads.viable_of_separator nonempty ended behind separator
    · exact completed ended

/-- Where a text is rejected, what is listed is viable unless it begins another option or a number
and is listed behind a word of the flag. -/
theorem viable_iff_of_rejected {text : List Char} {failure : Failure}
    (rejected : read text = .error failure) :
    ∃ before after, text = before ++ after ∧ failure.offset = Text.byteSize before ∧
      ∀ item ∈ failure.expected, Viable before item ↔ ¬(BehindMask before ∧ item ∈ partItems) := by
  obtain ⟨none, rfl⟩ := read_eq_error_iff.mp rejected
  obtain ⟨rest, ended⟩ := exists_endOfInput_missed none
  obtain ⟨before, after, rfl, offset, -, members, furthest⟩ :=
    exists_place_of_misses (List.ne_nil_of_mem ended) fun miss member => (trueOf_mem_outside member).1
  rw [Failure.ofTrace_eq]
  refine ⟨before, after, rfl, offset, fun item listed => ?_⟩
  have place := placed_of_rejected none (members item listed) fun other item member =>
    furthest (other, item) member
  have either : Viable before item ∨ BehindMask before ∧ item ∈ partItems := by
    cases place with
    | viable viable => exact .inl viable
    | stuck whole leads stuck within missed =>
      exact viable_or_behindMask_of_stuck whole leads stuck within missed
  exact ⟨fun viable mask => mask.1.not_viable mask.2 viable, either.resolve_right⟩

end Grammar

/-- Where a source is rejected, what its diagnostic lists is viable: the cleaned source up to the
failure, with the item or what it describes behind it and perhaps more, is accepted. Only another
option or a number right behind a word of the flag that ends an animation is listed and not
viable. -/
theorem viable_iff_of_tryParse {source : String} {diagnostic : Diagnostic}
    (rejected : tryParse source = .error diagnostic) :
    ∃ before after, clean source.toList = before ++ after ∧
      diagnostic.span.start = Text.byteSize before ∧
      ∀ item ∈ diagnostic.expected, Grammar.Viable before item ↔
        ¬(Grammar.BehindMask before ∧ item ∈ Grammar.partItems) := by
  cases outcome : Grammar.read (clean source.toList) with
  | ok clauses =>
    rw [tryParse_of_read outcome] at rejected
    cases rejected
  | error failure =>
    obtain ⟨before, after, whole, offset, viable⟩ :=
      Grammar.viable_iff_of_rejected outcome
    rw [tryParse_of_failure outcome, whole] at rejected
    cases rejected
    refine ⟨before, after, whole, ?_, fun item listed => viable item (Expected.mem_ordered.mp listed)⟩
    rw [Grammar.Failure.diagnostic, offset]
    exact Diagnostic.span_start_atOffset before after failure.expected

set_option maxRecDepth 100000 in
/-- Behind a point only a digit can come. -/
theorem viable_iff_of_tryParse_point : ∃ diagnostic,
    tryParse "create scale 2 .^" = .error diagnostic ∧
    ∃ before after, clean "create scale 2 .^".toList = before ++ after ∧
      diagnostic.span.start = Text.byteSize before ∧
      ∀ item ∈ diagnostic.expected, Grammar.Viable before item ↔
        ¬(Grammar.BehindMask before ∧ item ∈ Grammar.partItems) := by
  have rejected : Grammar.read (clean "create scale 2 .^".toList) = .error
      ⟨16, [.charClass "a digit", .charClass "a digit"]⟩ := by cbv
  exact ⟨_, tryParse_of_failure rejected, viable_iff_of_tryParse (tryParse_of_failure rejected)⟩

set_option maxRecDepth 100000 in
/-- Behind a word of the flag the tag is listed but not viable. -/
theorem not_viable_tag : ∃ diagnostic,
    tryParse "create animate a b mask^" = .error diagnostic ∧
    clean "create animate a b mask^".toList = "create animate a b mask".toList ++ ['^'] ∧
    diagnostic.span.start = Text.byteSize "create animate a b mask".toList ∧
    .literal "tag" ∈ diagnostic.expected ∧
    ¬Grammar.Viable "create animate a b mask".toList (.literal "tag") := by
  have rejected : Grammar.read (clean "create animate a b mask^".toList) = .error ⟨23,
      [.literal "tag", .literal "mask", .literal "nomask", .charClass "a digit", .literal ",",
        .literal ",", .literal ";", .literal ";", .endOfInput]⟩ := by cbv
  have behind : Grammar.BehindMask "create animate a b mask".toList :=
    ⟨"create animate a b ".toList, "mask", [], .create, [], ⟨[], "a", "b", []⟩, by decide,
      by decide, by cbv, by cbv⟩
  exact ⟨_, tryParse_of_failure rejected, by decide, by decide, by decide,
    behind.not_viable (by decide)⟩

end ActionString
