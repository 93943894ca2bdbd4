import ActionString.Proofs.CatchAll
import ActionString.Proofs.Endings

/-!
# Arguments told apart by how they begin

The arguments of the commands that move, scale and light an object are numbers or begin with words
that differ before they end. So which argument is read is seen from how it begins, and how far it
goes from the one character or two behind it. Whatever is missed among such arguments completes the
text before it: within an argument the rest of the argument, and behind one another argument, or
more of the same one.
-/

namespace ActionString.Grammar

open Rule Word

variable {α β : Type}

/-- The ways in which arguments end. -/
def argumentEndings : List Ending :=
  [.closed, .digits, .whole, .run CharClass.objectName.accepts, .run CharClass.colorCode.accepts]

/-- A rule reads only texts that begin with certain words. What it reads in front of one text it
reads in front of all, but for what is taken of them, and what it misses can come, also where a part
of it is taken by an argument before. -/
structure Headed (words : List String) (rule : Rule α) : Prop where
  begins ⦃text : List Char⦄ : (rule text).result.isSome = true → ∃ word ∈ words, Begins word text
  reads ⦃front rest : List Char⦄ ⦃value : α⦄ :
    (rule (front ++ rest)).result = some (value, rest) →
      ∃ ending ∈ argumentEndings, ending.left rest = rest ∧ ∀ more, ∃ other,
        (rule (front ++ more)).result = some (other, ending.left more)
  misses ⦃before after : List Char⦄ ⦃item : Expected⦄ : Misses rule before after item →
    ∀ ending ∈ argumentEndings, ending.left (before ++ after) = before ++ after →
      ∃ more, item.Opens more ∧ (ending.left (before ++ more) = [] ∨
        ∃ value, (rule (ending.left (before ++ more))).result = some (value, []))

/-- No text begins with two words that differ before they end. -/
theorem not_begins_of_differ {word other : String} {text : List Char} (differ : Differ word other)
    (begins : Begins other text) : ¬Begins word text := by
  obtain ⟨front, rest, rfl, same⟩ := begins
  rw [Text.sameFolded_iff, String.toList_ofList] at same
  have missed := result_keyword_of_differ differ same.symm rest
  rw [← stripFolded_eq_none_iff]
  unfold keyword expecting at missed
  split at missed
  · cases missed
  · assumption

namespace Headed

variable {words others : List String} {rule : Rule α}

/-- A text that is read does not begin with a space if none of the words does. -/
theorem strip_eq (headed : Headed words rule)
    (solid : ∀ word ∈ words, word.toList.head?.all (isSpace · = false) = true ∧ word.toList ≠ [])
    {text : List Char} (some : (rule text).result.isSome = true) : strip text = text := by
  obtain ⟨word, member, front, rest, rfl, same⟩ := headed.begins some
  rw [Text.sameFolded_iff, String.toList_ofList] at same
  obtain ⟨first, nonempty⟩ := solid word member
  obtain ⟨d, letters, spelling⟩ := List.exists_cons_of_ne_nil nonempty
  rw [spelling] at same first
  cases front with
  | nil => cases same
  | cons c front =>
    have lower : d.toLower = c.toLower := (List.cons.inj same).1
    have space (c : Char) : isSpace c.toLower = isSpace c := Text.apply_toLower (by decide) c
    refine strip_cons_of_not ?_ _
    rw [← space, ← lower, space]
    simpa using first

/-- An argument is read before those behind it, without spaces. -/
theorem result_spacedMany_cons [Consuming rule] (headed : Headed words rule)
    (solid : ∀ word ∈ words, word.toList.head?.all (isSpace · = false) = true ∧ word.toList ≠ [])
    {text rest last : List Char} {value : α} {values : List α}
    (found : (rule text).result = some (value, rest))
    (more : (spacedMany rule rest).result = some (values, last)) :
    (spacedMany rule text).result = some (value :: values, last) := by
  have same := headed.strip_eq solid (Option.isSome_of_eq_some found)
  exact result_spacedMany_of_some (by rw [same, found]) more

end Headed

/-! ### Completion behind an argument -/

/-- However an argument before a text ends, the item completes what the argument leaves of it. -/
def CompletesBehind (rule : Rule α) (before after : List Char) (item : Expected) : Prop :=
  ∀ ending ∈ argumentEndings, ending.left (before ++ after) = before ++ after →
    ∃ more, item.Opens more ∧ ∃ values rest,
      (spacedMany rule (ending.left (before ++ more))).result = some (values, rest) ∧
        blank rest = true

namespace CompletesBehind

variable {words : List String} {rule : Rule α} {before after : List Char} {item : Expected}

/-- An argument may take nothing of the text, which is completed then. -/
theorem completes (behind : CompletesBehind rule before after item) :
    Completes (spacedMany rule) before item := by
  obtain ⟨more, opens, values, rest, found, ended⟩ :=
    behind .closed (.head _) (Ending.left_closed _)
  rw [Ending.left_closed] at found
  exact ⟨more, values, rest, opens, found, ended⟩

/-- Where nothing is left, no argument need come. -/
theorem nil (rule : Rule α) [Consuming rule] (after : List Char) :
    CompletesBehind rule [] after .endOfInput := by
  intro ending _ _
  refine ⟨[], rfl, [], [], ?_, rfl⟩
  rw [List.append_nil, Ending.left_nil, result_spacedMany_nil]

/-- Spaces are not taken by the argument before them. -/
theorem gap [Consuming rule] {gap : List Char} (blanks : blank gap = true)
    (behind : CompletesBehind rule before after item) :
    CompletesBehind rule (gap ++ before) after item := by
  intro ending member kept
  cases gap with
  | nil => exact behind ending member kept
  | cons c spaces =>
    obtain ⟨more, values, rest, opens, found, ended⟩ := Completes.gap blanks behind.completes
    have noPoint : c :: spaces ≠ ['.'] := by
      intro same
      rw [same] at blanks
      cases blanks
    rw [List.append_assoc] at kept found
    refine ⟨more, opens, values, rest, ?_, ended⟩
    rw [List.append_assoc, Ending.left_append (List.cons_ne_nil _ _) noPoint kept, found]

/-- What is missed in an argument is the beginning of the rest of it. -/
theorem of_misses [Consuming rule] (headed : Headed words rule)
    (solid : ∀ word ∈ words, word.toList.head?.all (isSpace · = false) = true ∧ word.toList ≠ [])
    (misses : Misses rule before after item) : CompletesBehind rule before after item := by
  intro ending member kept
  obtain ⟨more, opens, nothing | ⟨value, found⟩⟩ := headed.misses misses ending member kept
  · exact ⟨more, opens, [], [], by rw [nothing, result_spacedMany_nil], rfl⟩
  · exact ⟨more, opens, [value], [],
      headed.result_spacedMany_cons solid found (result_spacedMany_nil rule), rfl⟩

/-- An argument takes what it reads as it is from the argument before it, and completes what is
completed behind it. -/
theorem cons [Consuming rule] (headed : Headed words rule)
    (solid : ∀ word ∈ words, word.toList.head?.all (isSpace · = false) = true ∧ word.toList ≠ [])
    (point : (rule ['.']).result = none) {text : List Char} {value : α}
    (found : (rule (text ++ (before ++ after))).result = some (value, before ++ after))
    (behind : CompletesBehind rule before after item) :
    CompletesBehind rule (text ++ before) after item := by
  intro ending member kept
  obtain ⟨next, inside, keptNext, again⟩ := headed.reads found
  obtain ⟨more, opens, values, rest, read, ended⟩ := behind next inside keptNext
  have nonempty : text ≠ [] := by
    rintro rfl
    exact absurd (Consuming.shorter found) (Nat.lt_irrefl _)
  have noPoint : text ≠ ['.'] := by
    rintro rfl
    obtain ⟨other, found⟩ := again []
    rw [List.append_nil, point] at found
    cases found
  obtain ⟨other, found⟩ := again (before ++ more)
  rw [List.append_assoc] at kept
  refine ⟨more, opens, other :: values, rest, ?_, ended⟩
  rw [List.append_assoc, Ending.left_append nonempty noPoint kept]
  exact headed.result_spacedMany_cons solid found read

end CompletesBehind

namespace Headed

variable {words others : List String} {rule : Rule α}

/-- Whatever is missed among arguments that are told apart by how they begin completes the text
before it. -/
theorem completes [Built rule] [Consuming rule] (headed : Headed words rule)
    (solid : ∀ word ∈ words, word.toList.head?.all (isSpace · = false) = true ∧ word.toList ≠ [])
    (point : (rule ['.']).result = none) {before after : List Char} {item : Expected}
    (awaits : Awaits rule before after item) : Completes (spacedMany rule) before item := by
  -- The text before may be behind an argument that takes some of it.
  have behind : CompletesBehind rule before after item :=
    awaits_induction (.nil rule) (fun _ _ _ => .of_misses headed solid)
      (fun _ _ _ _ blanks behind => behind.gap blanks)
      (fun _ _ _ _ _ found _ behind => behind.cons headed solid point found) awaits
  exact behind.completes

/-! ### Choices -/

theorem nil : Headed [] (firstOf ([] : List (Rule α))) where
  begins _ some := by cases some
  reads _ _ _ found := by cases found
  misses _ _ _ misses := absurd misses Misses.not_nil

/-- A choice of two rules whose words differ before they end is told apart by the words of both. -/
theorem cons {rules : List (Rule α)} [Built rule] (first : Headed words rule)
    (second : Headed others (firstOf rules))
    (differ : ∀ word ∈ words, ∀ other ∈ others, Differ word other) :
    Headed (words ++ others) (firstOf (rule :: rules)) := by
  have apart {text : List Char} (some : (firstOf rules text).result.isSome = true) :
      (rule text).result = none := by
    rw [← Option.not_isSome_iff_eq_none]
    intro both
    obtain ⟨word, member, begins⟩ := first.begins both
    obtain ⟨other, inside, begun⟩ := second.begins some
    exact not_begins_of_differ (differ word member other inside) begun begins
  refine ⟨fun text some => ?_, fun front rest value found => ?_, fun before after item misses => ?_⟩
  · rw [result_firstOf_cons, Option.isSome_or, Bool.or_eq_true] at some
    obtain here | later := some
    · obtain ⟨word, member, begins⟩ := first.begins here
      exact ⟨word, List.mem_append_left _ member, begins⟩
    · obtain ⟨word, member, begins⟩ := second.begins later
      exact ⟨word, List.mem_append_right _ member, begins⟩
  · rw [result_firstOf_cons, Option.or_eq_some_iff] at found
    obtain read | ⟨-, read⟩ := found
    · obtain ⟨ending, member, kept, again⟩ := first.reads read
      refine ⟨ending, member, kept, fun more => ?_⟩
      obtain ⟨other, found⟩ := again more
      exact ⟨other, by rw [result_firstOf_cons, found]; rfl⟩
    · obtain ⟨ending, member, kept, again⟩ := second.reads read
      refine ⟨ending, member, kept, fun more => ?_⟩
      obtain ⟨other, found⟩ := again more
      exact ⟨other, by rw [result_firstOf_cons, apart (by rw [found]; rfl), Option.none_or, found]⟩
  · intro ending member kept
    obtain here | ⟨-, later⟩ := misses.cons
    · obtain ⟨more, opens, left⟩ := first.misses here ending member kept
      refine ⟨more, opens, left.imp_right fun ⟨value, found⟩ => ⟨value, ?_⟩⟩
      rw [result_firstOf_cons, found]
      rfl
    · obtain ⟨more, opens, left⟩ := second.misses later ending member kept
      refine ⟨more, opens, left.imp_right fun ⟨value, found⟩ => ⟨value, ?_⟩⟩
      rw [result_firstOf_cons, apart (by rw [found]; rfl), Option.none_or, found]

/-- A change of the value does not change how a rule begins. -/
theorem map [Built rule] (change : α → β) (headed : Headed words rule) :
    Headed words (rule >>= fun value => pure (change value)) where
  begins text some := headed.begins (isSome_of_bind some)
  reads front rest last found := by
    rw [result_bind, Option.bind_eq_some_iff] at found
    obtain ⟨⟨value, left⟩, read, same⟩ := found
    cases same
    obtain ⟨ending, member, kept, again⟩ := headed.reads read
    refine ⟨ending, member, kept, fun more => ?_⟩
    obtain ⟨other, found⟩ := again more
    exact ⟨change other, by rw [result_bind_of_some found]; rfl⟩
  misses before after item misses ending member kept := by
    obtain ⟨more, opens, left⟩ := headed.misses misses.map ending member kept
    refine ⟨more, opens, left.imp_right fun ⟨value, found⟩ => ⟨change value, ?_⟩⟩
    rw [result_bind_of_some found]
    rfl

/-! ### Words -/

/-- A character that a key is made of: a letter of any alphabet. -/
def inKey (c : Char) : Bool := Text.isAlphanumeric c && !CharClass.digit.accepts c

/-- No ending but that of a name or a colour takes what begins with the character of a key. -/
theorem left_of_inKey {c : Char} (key : inKey c = true) (rest : List Char) {ending : Ending}
    (member : ending ∈ [Ending.closed, .digits, .whole]) : ending.left (c :: rest) = c :: rest := by
  obtain ⟨alphanumeric, digit⟩ := Bool.and_eq_true_iff.mp key
  have refused : CharClass.digit.accepts c = false := by simpa using digit
  have point : c ≠ '.' := by
    rintro rfl
    exact absurd alphanumeric (by decide)
  simp only [List.mem_cons, List.not_mem_nil, or_false] at member
  obtain rfl | rfl | rfl := member
  · exact Ending.left_closed _
  · exact Ending.left_run_eq_iff.mpr refused
  · exact Ending.left_whole_eq_iff.mpr (by simp [numberNext, digitNext, refused, point])

/-- A rule is told apart by a word if it misses only the word and what comes behind it. -/
theorem of_word {word : String} {endings : List Ending} (letters : ∀ c ∈ word.toList, inKey c = true)
    (nonempty : word.toList ≠ []) (resumable : Resumable endings rule)
    (part : endings ⊆ argumentEndings)
    (begins : ∀ {text}, (rule text).result.isSome = true → Begins word text)
    (missed : ∀ {before after item}, Misses rule before after item →
      before = [] ∧ item = .literal word ∨ ∃ c rest, before = c :: rest ∧ c ≠ '.') :
    Headed [word] rule where
  begins text some := ⟨word, .head _, begins some⟩
  reads front rest value found := by
    obtain ⟨ending, member, kept, again⟩ := resumable.reads found
    refine ⟨ending, part member, kept, fun more => ?_⟩
    obtain ⟨other, found, -⟩ := again more
    exact ⟨other, found⟩
  misses before after item misses ending member kept := by
    obtain ⟨more, value, some, opens, found⟩ := resumable.misses misses
    by_cases whole : ending.left (before ++ more) = before ++ more
    · exact ⟨more, opens, .inr ⟨value, by rw [whole, found]⟩⟩
    obtain ⟨rfl, rfl⟩ | ⟨c, rest, rfl, point⟩ := missed misses
    · -- The whole word is part of a name or a colour.
      obtain ⟨tail, rfl⟩ := opens
      obtain ⟨c, others, spelling⟩ := List.exists_cons_of_ne_nil nonempty
      have key := letters c (spelling ▸ .head _)
      simp only [argumentEndings, List.mem_cons, List.not_mem_nil, or_false] at member
      have taken {accepts : Char → Bool} (accepted : ∀ c, Text.isAlphanumeric c = true →
          accepts c = true) : (Ending.run accepts).left word.toList = [] :=
        List.dropWhile_eq_nil_iff.mpr fun c member =>
          accepted c (Bool.and_eq_true_iff.mp (letters c member)).1
      refine ⟨word.toList, List.prefix_refl _, .inl ?_⟩
      rw [List.nil_append]
      obtain rfl | rfl | rfl | rfl | rfl := member
      · exact absurd (Ending.left_closed _) whole
      · rw [spelling] at whole
        exact absurd (left_of_inKey key _ (by simp)) whole
      · rw [spelling] at whole
        exact absurd (left_of_inKey key _ (by simp)) whole
      · exact taken fun c accepted => by simp [CharClass.accepts, accepted]
      · exact taken fun c accepted => by simp [CharClass.accepts, accepted]
    · refine absurd (Ending.left_append (List.cons_ne_nil _ _) ?_ kept more) whole
      exact fun same => point (List.cons.inj same).1

/-- A fixed text begins the texts that it is read from. -/
theorem begins_of_literal {word : String} {text : List Char}
    (some : (Rule.literal word text).result.isSome = true) : Begins word text := by
  obtain ⟨⟨value, rest⟩, found⟩ := Option.isSome_iff_exists.mp some
  obtain ⟨-, rfl⟩ := eq_append_of_result_literal found
  exact ⟨word.toList, rest, rfl, by rw [Text.sameFolded_iff, String.toList_ofList]⟩

/-- A keyword begins the texts that it is read from. -/
theorem begins_of_keyword {word : String} {text : List Char}
    (some : (Rule.keyword word text).result.isSome = true) : Begins word text := by
  by_contra other
  rw [result_keyword_of_not_begins other] at some
  cases some

theorem literal {word : String} (letters : ∀ c ∈ word.toList, inKey c = true)
    (nonempty : word.toList ≠ []) : Headed [word] (Rule.literal word) :=
  of_word letters nonempty (.literal nonempty) (by simp [argumentEndings]) begins_of_literal
    fun misses => .inl misses.literal

theorem literal_bind {word : String} {next : List Char → Rule α} [∀ value, Built (next value)]
    {endings : List Ending} (letters : ∀ c ∈ word.toList, inKey c = true)
    (nonempty : word.toList ≠ []) (part : endings ⊆ argumentEndings)
    (second : ∀ value, Resumable endings (next value)) :
    Headed [word] (Rule.literal word >>= next) := by
  refine of_word letters nonempty ((Resumable.literal nonempty).bind_closed second) part
    (fun some => begins_of_literal (isSome_of_bind some)) fun misses => ?_
  obtain here | ⟨value, front, middle, rfl, found, -⟩ := misses.bind
  · exact .inl here.literal
  · obtain ⟨-, whole⟩ := eq_append_of_result_literal found
    rw [← List.append_assoc] at whole
    obtain ⟨c, rest, spelling⟩ := List.exists_cons_of_ne_nil nonempty
    have key := letters c (spelling ▸ .head _)
    refine .inr ⟨c, rest ++ middle, ?_, fun point => absurd (point ▸ key) (by decide)⟩
    rw [List.append_cancel_right whole, spelling, List.cons_append]

theorem keyword_bind {word : String} {next : List Char → Rule α} [∀ value, Built (next value)]
    {endings : List Ending} (letters : ∀ c ∈ word.toList, inKey c = true)
    (nonempty : word.toList ≠ []) (part : endings ⊆ argumentEndings)
    (second : ∀ value, Resumable endings (next value)) :
    Headed [word] (Rule.keyword word >>= next) := by
  refine of_word letters nonempty ((Resumable.keyword nonempty).bind_closed second) part
    (fun some => begins_of_keyword (isSome_of_bind some)) fun misses => ?_
  obtain here | ⟨spelt, front, middle, rfl, found, -⟩ := misses.bind
  · exact .inl here.keyword
  · have spelling := stripFolded_of_result_keyword found
    have whole := Text.eq_append_of_stripFolded spelling
    have same := Text.map_toLower_of_stripFolded spelling
    rw [← List.append_assoc] at whole
    obtain ⟨d, others, letter⟩ := List.exists_cons_of_ne_nil nonempty
    have key := letters d (letter ▸ .head _)
    rw [letter] at same
    cases spelt with
    | nil => cases same
    | cons c rest =>
      have lower : c.toLower = d.toLower := (List.cons.inj same).1
      have alike (c : Char) : inKey c.toLower = inKey c := Text.apply_toLower (by decide) c
      have other : inKey c = true := by rw [← alike, lower, alike, key]
      refine .inr ⟨c, rest ++ middle, ?_, fun point => absurd (point ▸ other) (by decide)⟩
      rw [List.append_cancel_right whole, List.cons_append]

/-- A value behind an equals sign ends as it does. -/
theorem resumable_value {value : Rule (List Char)} [Built value] {endings : List Ending}
    (resumable : Resumable endings value) (use : List Char → β) : Resumable endings (do
      let _ ← Rule.literal "="
      let value ← value
      return use value) :=
  (Resumable.literal (by decide)).bind_closed fun _ => resumable.map use

theorem name : Headed ["name"] Argument.name :=
  literal_bind (by decide) (by decide)
    (show [.run CharClass.objectName.accepts] ⊆ argumentEndings by simp [argumentEndings]) fun _ => (Resumable.literal (by decide)).bind_closed fun _ =>
      .make _ (.chars (c := 'a') (by decide))

/-- The words of a flag are told apart by themselves. -/
theorem status {flag : Flag} {off : String} (paired : flag.offWord? = some off)
    (letters : ∀ word ∈ [flag.word, off], ∀ c ∈ word.toList, inKey c = true)
    (nonempty : ∀ word ∈ [flag.word, off], word.toList ≠ []) (differ : Differ flag.word off) :
    Headed [flag.word, off] (Argument.status flag) := by
  simp only [List.forall_mem_cons] at letters nonempty
  have words := cons (literal letters.1 nonempty.1)
    (cons (literal letters.2.1 nonempty.2.1) nil (by simp)) (by simpa using differ)
  rw [Argument.status, paired]
  exact words.map _

/-! ### Numbers -/

/-- The characters that numbers begin with, as words. -/
def numberHeads : List String :=
  ["+", "-", ".", "0", "1", "2", "3", "4", "5", "6", "7", "8", "9"]

/-- A text begins with its first character. -/
theorem begins_singleton (c : Char) (rest : List Char) : Begins (String.ofList [c]) (c :: rest) :=
  ⟨[c], rest, rfl, by rw [Text.sameFolded_iff]⟩

/-- A digit is the head of a number. -/
theorem ofList_mem_numberHeads {c : Char} (digit : CharClass.digit.accepts c = true) :
    String.ofList [c] ∈ numberHeads := by
  have each : ∀ n < 58, CharClass.digit.accepts (Char.ofNat n) = true →
      String.ofList [Char.ofNat n] ∈ numberHeads := by decide +kernel
  have least : c.isDigit = true := digit
  rw [Char.isDigit, Bool.and_eq_true, decide_eq_true_eq, decide_eq_true_eq] at least
  have small : c.toNat < 58 := Nat.lt_succ_of_le least.2
  have member := each c.toNat small
  rw [Char.ofNat_toNat] at member
  exact member digit

theorem signedNumber : Headed numberHeads Word.signedNumber where
  begins text some := by
    cases text with
    | nil => cases some
    | cons c rest =>
      refine ⟨String.ofList [c], ?_, begins_singleton c rest⟩
      by_cases mark : CharClass.sign.accepts c = true
      · have signs : ∀ sign ∈ ['+', '-'], String.ofList [sign] ∈ numberHeads := by decide
        exact signs c (by simpa [CharClass.accepts] using mark)
      · rw [result_signedNumber_of_unmarked (by simpa using mark), isSome_number, numberNext,
          Bool.or_eq_true, Bool.and_eq_true] at some
        obtain digit | ⟨point, -⟩ := some
        · exact ofList_mem_numberHeads digit
        · obtain rfl : c = '.' := by simpa using point
          decide
  reads front rest value found := by
    obtain ⟨ending, member, kept, again⟩ := Resumable.signedNumber.reads found
    refine ⟨ending, List.subset_def.mp (by simp [argumentEndings]) member, kept, fun more => ?_⟩
    obtain ⟨other, found, -⟩ := again more
    exact ⟨other, found⟩
  misses before after item misses ending member kept := by
    obtain ⟨more, value, nonempty, opens, found⟩ := Resumable.signedNumber.misses misses
    by_cases whole : ending.left (before ++ more) = before ++ more
    · exact ⟨more, opens, .inr ⟨value, by rw [whole, found]⟩⟩
    -- Only at its beginning and behind a point a number can be taken by an ending before it.
    have short : before = [] ∨ before = ['.'] := by
      by_contra other
      rw [not_or] at other
      exact whole (Ending.left_append other.1 other.2 kept more)
    have candidates : ∀ text ∈ ["+0", ".0", "0"], ∀ ending ∈ argumentEndings,
        ending.left text.toList = [] ∨
          (Word.signedNumber (ending.left text.toList)).result.map Prod.snd = some [] := by
      decide +kernel
    have candidate (text : String) (given : text ∈ ["+0", ".0", "0"]) :
        ending.left text.toList = [] ∨
          ∃ value, (Word.signedNumber (ending.left text.toList)).result = some (value, []) :=
      (candidates text given ending member).imp_right fun same => by
        obtain ⟨⟨value, rest⟩, found, rfl⟩ := Option.map_eq_some_iff.mp same
        exact ⟨value, found⟩
    obtain ⟨mark, point, digit⟩ := opens_number
    obtain rfl | rfl := short
    · have items := misses.signedNumber_short.1 rfl
      simp only [List.mem_cons, List.not_mem_nil, or_false] at items
      obtain rfl | rfl | rfl := items
      · exact ⟨_, mark, candidate "+0" (by decide)⟩
      · exact ⟨_, point, candidate ".0" (by decide)⟩
      · exact ⟨_, digit, candidate "0" (by decide)⟩
    · obtain rfl := misses.signedNumber_short.2 rfl
      exact ⟨_, digit, candidate ".0" (by decide)⟩

/-! ### Parameters -/

theorem parameter (word : String) {value : Rule (List Char)} [Built value] {endings : List Ending}
    (letters : ∀ c ∈ word.toList, inKey c = true) (nonempty : word.toList ≠ [])
    (part : endings ⊆ argumentEndings) (resumable : Resumable endings value)
    (meant : String → ParameterValue) :
    Headed [word] (Argument.parameter (Rule.literal word) value meant) :=
  literal_bind letters nonempty part fun _ => resumable_value resumable _

theorem keyParameter (word : String) {value : Rule (List Char)} [Built value]
    {endings : List Ending} (letters : ∀ c ∈ word.toList, inKey c = true)
    (nonempty : word.toList ≠ []) (part : endings ⊆ argumentEndings)
    (resumable : Resumable endings value) (meant : String → ParameterValue) :
    Headed [word] (Argument.parameter (Rule.keyword word) value meant) :=
  keyword_bind letters nonempty part fun _ => resumable_value resumable _

theorem numberParameter (word : String) (letters : ∀ c ∈ word.toList, inKey c = true)
    (nonempty : word.toList ≠ []) : Headed [word] (Argument.numberParameter (Rule.literal word)) :=
  parameter word letters nonempty (by simp [argumentEndings]) .number _

theorem numberKeyParameter (word : String) (letters : ∀ c ∈ word.toList, inKey c = true)
    (nonempty : word.toList ≠ []) : Headed [word] (Argument.numberParameter (Rule.keyword word)) :=
  keyParameter word letters nonempty (by simp [argumentEndings]) .number _

theorem time : Headed ["time"] Argument.time := numberParameter "time" (by decide) (by decide)

theorem wait : Headed ["wait"] Argument.wait := numberParameter "wait" (by decide) (by decide)

theorem tag : Headed ["tag"] Argument.tag :=
  parameter "tag" (by decide) (by decide)
    (show [.digits] ⊆ argumentEndings by simp [argumentEndings])
    (.chars (c := '0') (by decide)) _

end Headed

/-! ### The kinds of commands -/

/-- The command that lights an object completes texts. -/
theorem resumes_light : Resumes (phraseOf .light) := by
  have type : Resumable [.closed] Argument.lightType :=
    .keywords "point" ["spot"] (by decide) (by decide)
  have effect : Resumable [.closed] Argument.lightEffect :=
    .keywords "blink" ["fadein", "fadeout", "fire", "flicker", "flash", "pulse"] (by decide)
      (by decide)
  have color : Resumable [.run CharClass.colorCode.accepts] colorCode := .chars (c := 'a') (by decide)
  have angle := Headed.cons (.numberParameter "angle" (by decide) (by decide))
    (.cons (.numberParameter "pitch" (by decide) (by decide)) .nil (by decide)) (by decide)
  have later := Headed.cons .name (.cons (.keyParameter "fx" (by decide) (by decide)
    (by simp [argumentEndings]) effect .word) (.cons .time angle (by decide)) (by decide)) (by decide)
  have reach := Headed.cons (.numberKeyParameter "brightness" (by decide) (by decide))
    (.cons (.numberKeyParameter "radius" (by decide) (by decide)) later (by decide))
    (by decide)
  have headed := Headed.cons (.keyParameter "type" (by decide) (by decide)
      (by simp [argumentEndings]) type .word)
    (.cons (.keyParameter "color" (by decide) (by decide) (by simp [argumentEndings])
      color .color) reach (by decide)) (by decide)
  exact .keyword (by decide) fun _ => .map (.spacedMany fun _ _ _ =>
    headed.completes (by decide) (by decide))

/-- The commands with a level complete texts. -/
theorem resumes_level {kind : CommandKind} {use : LevelUse} (word : kind.word.toList ≠ []) :
    Resumes (withArguments kind (firstOf [Argument.level use, Argument.tag, Argument.name])) := by
  have level : Headed Headed.numberHeads (Argument.level use) := Headed.signedNumber.map _
  have headed := level.cons (.cons .tag (.cons .name .nil (by decide)) (by decide)) (by decide)
  exact .keyword word fun _ => .map (.spacedMany fun _ _ _ =>
    headed.completes (by decide) (by cases use <;> decide))

/-! ### Numbers for the axes -/

/-- A number for one of the axes. -/
def axis (use : AxesUse) : Rule Argument :=
  make (fun number => .axes use [number]) signedNumber

instance (use : AxesUse) : Built (axis use) := inferInstanceAs (Built (make _ signedNumber))

instance (use : AxesUse) : Consuming (axis use) := inferInstanceAs (Consuming (make _ signedNumber))

section Axes

variable (use : AxesUse) (others : List (Rule Argument))

/-- Numbers for the axes are read together. -/
theorem result_axes_of_some {text left rest number : List Char} {behind : List (List Char)}
    (first : (signedNumber text).result = some (number, left))
    (more : (spacedMany signedNumber left).result = some (behind, rest)) :
    (firstOf (Argument.axes use :: others) text).result =
      some (.axes use ((number :: behind).map String.ofList), rest) := by
  rw [result_firstOf_cons, Argument.axes, result_bind_of_some first, result_bind_of_some more]
  rfl

/-- A number for one of the axes is read by itself. -/
theorem result_axis_of_some {text left number : List Char}
    (first : (signedNumber text).result = some (number, left)) :
    (firstOf (axis use :: others) text).result = some (.axes use [String.ofList number], left) := by
  rw [result_firstOf_cons, axis, make, result_bind_of_some first]
  rfl

/-- Where no number comes first, another argument is read. -/
theorem result_axes_of_none {text : List Char} (first : (signedNumber text).result = none) :
    (firstOf (Argument.axes use :: others) text).result = (firstOf others text).result ∧
      (firstOf (axis use :: others) text).result = (firstOf others text).result := by
  rw [result_firstOf_cons, result_firstOf_cons, Argument.axes, axis, make,
    result_bind_of_none first, result_bind_of_none first]
  exact ⟨rfl, rfl⟩

/-- Where no number comes first, the same is missed whether numbers are read together or not. -/
theorem mem_outside_axis_of_none {text : List Char} (first : (signedNumber text).result = none)
    {miss : List Char × Expected}
    (missed : miss ∈ outside 0 (firstOf (Argument.axes use :: others) text).trace) :
    miss ∈ outside 0 (firstOf (axis use :: others) text).trace := by
  have one : (axis use text).result = none := result_bind_of_none first _
  refine mem_outside_orElse_iff.mpr ((mem_outside_orElse_iff.mp missed).imp (fun number => ?_)
    fun later => ⟨one, later.2⟩)
  obtain begun | ⟨_, _, found, -⟩ := mem_outside_bind_iff.mp number
  · exact mem_outside_bind_iff.mpr (.inl begun)
  · rw [first] at found
    cases found

/-- What is missed in numbers that are read together is missed in the first of them or behind it. -/
theorem mem_outside_axes_of_some {text left number : List Char}
    (first : (signedNumber text).result = some (number, left)) {miss : List Char × Expected}
    (missed : miss ∈ outside 0 (firstOf (Argument.axes use :: others) text).trace) :
    miss ∈ outside 0 (firstOf (axis use :: others) text).trace ∨
      miss ∈ outside 0 (spacedMany signedNumber left).trace := by
  obtain axes | ⟨none, -⟩ := mem_outside_orElse_iff.mp missed
  · obtain begun | ⟨_, _, same, behind⟩ := mem_outside_bind_iff.mp axes
    · exact .inl (mem_outside_orElse_iff.mpr (.inl (mem_outside_bind_iff.mpr (.inl begun))))
    · rw [first] at same
      cases same
      exact .inr (mem_outside_map_iff.mp behind)
  · obtain ⟨behind, rest, more⟩ := exists_spacedMany signedNumber left
    rw [Argument.axes, result_bind_of_some first, result_bind_of_some more] at none
    cases none

/-- Arguments are read as far as with the numbers for the axes taken one by one, and no more is
missed. -/
def ReadsAlike (text : List Char) : Prop :=
  ∃ values numbers rest,
    (spacedMany (firstOf (Argument.axes use :: others)) text).result = some (values, rest) ∧
    (spacedMany (firstOf (axis use :: others)) text).result = some (numbers, rest) ∧
    ∀ miss ∈ outside 0 (spacedMany (firstOf (Argument.axes use :: others)) text).trace,
      miss ∈ outside 0 (spacedMany (firstOf (axis use :: others)) text).trace

variable {use others} in
/-- Where no argument comes, nothing is read. -/
theorem ReadsAlike.of_none {text : List Char} (first : (signedNumber (strip text)).result = none)
    (other : (firstOf others (strip text)).result = none) : ReadsAlike use others text := by
  obtain ⟨all, each⟩ := result_axes_of_none use others first
  rw [other] at all each
  rw [ReadsAlike, spacedMany_of_none all, spacedMany_of_none each]
  exact ⟨[], [], text, rfl, rfl, fun _ => mem_outside_axis_of_none use others first⟩

variable [Built (firstOf others)] [Consuming (firstOf others)]

/-- Arguments that begin with numbers for the axes are read and missed like the numbers and the
arguments behind them. -/
theorem spacedMany_axes {text rest : List Char} {numbers : List (List Char)}
    (found : (spacedMany signedNumber text).result = some (numbers, rest)) :
    ∃ values more last,
      (spacedMany (firstOf (Argument.axes use :: others)) text).result = some (values, last) ∧
      (spacedMany (firstOf (Argument.axes use :: others)) rest).result = some (more, last) ∧
      ∀ miss, miss ∈ outside 0 (spacedMany signedNumber text).trace ∨
          miss ∈ outside 0 (spacedMany (firstOf (Argument.axes use :: others)) rest).trace →
        miss ∈ outside 0 (spacedMany (firstOf (Argument.axes use :: others)) text).trace := by
  obtain ⟨more, last, read⟩ := exists_spacedMany (firstOf (Argument.axes use :: others)) rest
  cases first : (signedNumber (strip text)).result with
  | none =>
    rw [spacedMany_of_none first] at found ⊢
    cases found
    refine ⟨more, more, last, read, read, fun miss either => either.elim (fun missed => ?_) id⟩
    -- What the number misses is missed by the first alternative.
    have axes : miss ∈ outside 0 (firstOf (Argument.axes use :: others) (strip text)).trace :=
      mem_outside_orElse_iff.mpr (.inl (mem_outside_bind_iff.mpr (.inl missed)))
    cases next : (firstOf (Argument.axes use :: others) (strip text)).result with
    | none => rwa [spacedMany_of_none next]
    | some pair => exact (mem_outside_spacedMany_of_some next).mpr (.inl axes)
  | some pair =>
    obtain ⟨number, left⟩ := pair
    obtain ⟨behind, final, others'⟩ := exists_spacedMany signedNumber left
    have whole := result_spacedMany_of_some first others'
    rw [found] at whole
    cases whole
    have next := result_axes_of_some use others first others'
    refine ⟨_, more, last, result_spacedMany_of_some next read, read, fun miss either => ?_⟩
    rw [mem_outside_spacedMany_of_some next]
    refine either.imp_left fun missed => mem_outside_orElse_iff.mpr (.inl ?_)
    rw [mem_outside_spacedMany_of_some first] at missed
    refine mem_outside_bind_iff.mpr (missed.imp_right fun later => ⟨_, _, first, ?_⟩)
    exact mem_outside_bind_iff.mpr (.inl later)

variable {use others} {text left : List Char}

/-- Behind a number that comes first, texts are read alike if what is left of them is. -/
theorem ReadsAlike.of_number {number : List Char} (later : ReadsAlike use others left)
    (first : (signedNumber (strip text)).result = some (number, left)) :
    ReadsAlike use others text := by
  obtain ⟨behind, rest, more⟩ := exists_spacedMany signedNumber left
  have all := result_axes_of_some use others first more
  have one := result_axis_of_some use others first
  obtain ⟨_, _, last, read, behindAll, missed⟩ := spacedMany_axes use others more
  obtain ⟨_, _, _, same, behindOne, missedOne⟩ := later
  rw [read] at same
  cases same
  refine ⟨_, _, last, result_spacedMany_of_some all behindAll,
    result_spacedMany_of_some one behindOne, fun miss member => ?_⟩
  rw [mem_outside_spacedMany_of_some one]
  obtain here | after := (mem_outside_spacedMany_of_some all).mp member
  · exact (mem_outside_axes_of_some use others first here).imp_right fun inside =>
      missedOne _ (missed _ (.inl inside))
  · exact .inr (missedOne _ (missed _ (.inr after)))

/-- Behind another argument, too. -/
theorem ReadsAlike.of_other {value : Argument} (later : ReadsAlike use others left)
    (first : (signedNumber (strip text)).result = none)
    (other : (firstOf others (strip text)).result = some (value, left)) :
    ReadsAlike use others text := by
  obtain ⟨all, each⟩ := result_axes_of_none use others first
  rw [other] at all each
  obtain ⟨_, _, rest, read, readOne, missed⟩ := later
  refine ⟨_, _, rest, result_spacedMany_of_some all read,
    result_spacedMany_of_some each readOne, fun miss member => ?_⟩
  rw [mem_outside_spacedMany_of_some each]
  exact ((mem_outside_spacedMany_of_some all).mp member).imp
    (mem_outside_axis_of_none use others first) (missed miss)

variable (use others)

/-- Every text is read as far as with the numbers taken one by one. -/
theorem readsAlike (text : List Char) : ReadsAlike use others text := by
  induction length : text.length using Nat.strong_induction_on generalizing text with
  | _ size ih =>
    subst length
    have within := (strip_suffix text).length_le
    cases first : (signedNumber (strip text)).result with
    | some pair =>
      obtain ⟨number, left⟩ := pair
      have shorter := (Consuming.shorter first).trans_le within
      exact (ih _ shorter left rfl).of_number first
    | none =>
      cases other : (firstOf others (strip text)).result with
      | none => exact .of_none first other
      | some pair =>
        obtain ⟨value, left⟩ := pair
        have shorter := (Consuming.shorter other).trans_le within
        exact (ih _ shorter left rfl).of_other first other

/-- A command with numbers for the axes completes texts if it does so with the numbers taken one by
one. -/
theorem resumes_of_axis {kind : CommandKind} (word : kind.word.toList ≠ [])
    (each : ∀ before after item, Awaits (firstOf (axis use :: others)) before after item →
      Completes (spacedMany (firstOf (axis use :: others))) before item) :
    Resumes (withArguments kind (firstOf (Argument.axes use :: others))) := by
  refine .keyword word fun _ => .map ?_
  intro before after value rest item found stuck within looked
  obtain ⟨values, numbers, last, read, readOne, missed⟩ :=
    readsAlike use others (before ++ after)
  rw [found] at read
  cases read
  have awaits : Awaits (firstOf (axis use :: others)) before after item :=
    looked.imp (missed _) fun ⟨same, place⟩ => ⟨same, numbers, _, readOne, place⟩
  obtain ⟨more, _, tail, opens, completed, ended⟩ := each before after item awaits
  obtain ⟨values, _, last, read, readOne, -⟩ := readsAlike use others (before ++ more)
  rw [completed] at readOne
  cases readOne
  exact ⟨more, values, tail, opens, read, ended⟩

end Axes

/-- The commands that move, turn and scale an object complete texts. -/
theorem resumes_of_axes {kind : CommandKind} (axes : kind ∈ [CommandKind.move, .rotate, .scale]) :
    Resumes (phraseOf kind) := by
  have number (use : AxesUse) : Headed Headed.numberHeads (axis use) := Headed.signedNumber.map _
  have loops := Headed.status (rfl : Flag.loops.offWord? = some "noloop") (by decide) (by decide)
    (by decide)
  have sync := Headed.status (rfl : Flag.sync.offWord? = some "nosync") (by decide) (by decide)
    (by decide)
  have reset := Headed.status (rfl : Flag.reset.offWord? = some "noreset") (by decide) (by decide)
    (by decide)
  have turned (use : AxesUse) := (number use).cons (sync.cons (Headed.time.cons (loops.cons
    (reset.cons (Headed.wait.cons (Headed.name.cons .nil (by decide)) (by decide)) (by decide))
    (by decide)) (by decide)) (by decide)) (by decide)
  have moved := (number .distance).cons (loops.cons (sync.cons (reset.cons (Headed.name.cons
    (Headed.time.cons (Headed.wait.cons .nil (by decide)) (by decide)) (by decide)) (by decide))
    (by decide)) (by decide)) (by decide)
  cases kind
  case move =>
    exact resumes_of_axis _ _ (by decide) fun _ _ _ => moved.completes (by decide) (by decide)
  case rotate =>
    exact resumes_of_axis _ _ (by decide) fun _ _ _ =>
      (turned .speed).completes (by decide) (by decide)
  case scale =>
    exact resumes_of_axis _ _ (by decide) fun _ _ _ =>
      (turned .factor).completes (by decide) (by decide)
  all_goals simp at axes

end ActionString.Grammar
