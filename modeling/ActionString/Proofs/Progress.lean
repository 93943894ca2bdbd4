import ActionString.Proofs.Clauses
import ActionString.Proofs.Loops
import ActionString.Proofs.Misses
import Mathlib

/-!
# Reading comes to an end

The rules that the grammar repeats read something whenever they apply, and what does not apply gives
back what it tried, so each repetition goes on for a part of the text that is left. Some rules may
read nothing, such as the one for text without meaning; a list of such elements still ends, because
its separators are read.
-/

namespace ActionString.Grammar

open Rule Word

/-- The rule for the arguments of a kind of command, or for the options of an animation. -/
def Argument.rule? : CommandKind → Option (Rule Argument)
  | .texture => some texture
  | .animate => some Argument.animate
  | .sound => some sound
  | .corona => some corona
  | .color => some color
  | .solid | .visible => some switch
  | .name => some target
  | .move => some move
  | .rotate => some rotate
  | .scale => some scale
  | .light => some light
  | .noise => some noise
  | .opacity => some opacity
  | .ambient | .diffuse | .specular => some intensity
  | .picture => some picture
  | .media => some media
  | .say => some say
  | .seq => some seq
  | .sign => some Argument.sign
  | .url => some url
  | .examine | .teleport | .warp | .invalid => none

/-- The rule for arguments is the one that is repeated after the word of the command. -/
theorem phraseOf_of_rule? {kind : CommandKind} {rule : Rule Argument}
    (given : Argument.rule? kind = some rule) (other : kind ≠ .animate) :
    phraseOf kind = withArguments kind rule := by
  cases kind <;> cases given
  case animate => exact absurd rfl other
  all_goals rfl

/-- The rules for arguments read forward, and they read something. -/
theorem consuming_of_rule? {kind : CommandKind} {rule : Rule Argument}
    (given : Argument.rule? kind = some rule) : Forward rule ∧ Consuming rule := by
  cases kind <;> cases given <;> exact ⟨inferInstance, inferInstance⟩

/-- A word that is not empty is read. -/
theorem consuming_literal {word : String} (solid : word ≠ "") : Consuming (literal word) :=
  Consuming.literal fun empty => solid (String.toList_inj.mp empty)

/-- Names and numbers read forward, and they read something. -/
theorem consuming_of_mem_words {rule : Rule (List Char)}
    (member : rule ∈ [objectName, fileName, integer, signedNumber]) :
    Forward rule ∧ Consuming rule := by
  simp only [List.mem_cons, List.not_mem_nil, or_false] at member
  obtain rfl | rfl | rfl | rfl := member
  all_goals exact ⟨inferInstance, inferInstance⟩

/-- An optional rule reads nothing, not even spaces, or what the rule reads after spaces. -/
theorem spacedOptional_cases {α : Type} (rule : Rule α) (text : List Char) :
    (spacedOptional rule text).result = some (none, text) ∨
      ∃ value rest, (spaced rule text).result = some (value, rest) ∧
        (spacedOptional rule text).result = some (some value, rest) := by
  rw [spacedOptional, result_optional]
  cases found : (spaced rule text).result with
  | none => exact .inl rfl
  | some pair => exact .inr ⟨pair.1, pair.2, rfl, rfl⟩

/-- A look-ahead applies without reading, or else the next alternative reads from the same place. -/
theorem notAhead_cases {α : Type} (rule : Rule α) (text : List Char) :
    (notAhead rule text).result = some ((), text) ∨
      (notAhead rule text).result = none ∧ ∀ other : Rule Unit,
        (orElse (notAhead rule) other text).result = (other text).result := by
  cases ahead : (notAhead rule text).result with
  | none => exact .inr ⟨rfl, fun other => by rw [orElse_of_none ahead]⟩
  | some pair => exact .inl (by rw [← eq_of_notAhead ahead])

/-- No rule looks for anything but at an end of the text. -/
theorem suffix_of_missed {α : Type} {rule : Rule α} [built : Built rule] {text place : List Char}
    {expected : Expected} (missed : .missed place expected ∈ (rule text).trace) : place <:+ text :=
  (built.trueOf_trace text _ missed).1

/-- Separators without an element behind them are given back. -/
theorem followers_of_separators {α : Type} {separator : String} {element : Rule α}
    {text middle : List Char} (found : (separators separator text).result = some ((), middle))
    (missed : (spaced element middle).result = none) :
    (followers separator element text).result = some ([], text) := by
  have ended : (follower separator element text).result = none := by
    rw [follower, result_bind_of_some found, missed]
  rw [followers_of_none ended]

/-- A separator with an element after it ends with the element. -/
theorem exists_of_follower {α : Type} {separator : String} {element : Rule α}
    {text rest : List Char} {value : α}
    (found : (follower separator element text).result = some (value, rest)) :
    ∃ place, (element place).result = some (value, rest) := by
  rw [follower, result_bind, Option.bind_eq_some_iff] at found
  obtain ⟨⟨_, middle⟩, -, found⟩ := found
  rw [spaced_eq] at found
  exact ⟨_, found⟩

/-- What follows in a list ends with its last element. -/
theorem followers_ends {α : Type} {separator : String} {element : Rule α} {text rest : List Char}
    {values : List α} (found : (followers separator element text).result = some (values, rest)) :
    values = [] ∧ rest = text ∨
      ∃ place value, values.getLast? = some value ∧
        (element place).result = some (value, rest) := by
  induction text using repeat_induction (follower separator element) generalizing values with
  | stop text missed =>
    rw [followers_of_none missed] at found
    cases found
    exact .inl ⟨rfl, rfl⟩
  | idle text value middle first same =>
    rw [followers_of_idle first same] at found
    cases found
    obtain ⟨place, last⟩ := exists_of_follower first
    exact .inr ⟨place, value, rfl, last⟩
  | step text value middle first shorter ih =>
    rw [followers_of_some first shorter, Option.map_eq_some_iff] at found
    obtain ⟨⟨others, last⟩, more, same⟩ := found
    cases same
    obtain ⟨rfl, rfl⟩ | ⟨place, final, isLast, read⟩ := ih more
    · obtain ⟨place, read⟩ := exists_of_follower first
      exact .inr ⟨place, value, rfl, read⟩
    · exact .inr ⟨place, final, by rw [List.getLast?_cons, isLast]; rfl, read⟩

/-- A list ends with its last element: what is read after it without another is given back. -/
theorem separated_ends {α : Type} {separator : String} {element : Rule α} {text rest : List Char}
    {values : List α} (found : (separated separator element text).result = some (values, rest)) :
    values = [] ∧ rest = text ∨
      ∃ place value, values.getLast? = some value ∧
        (element place).result = some (value, rest) := by
  cases first : (element (strip text)).result with
  | none =>
    rw [result_separated_of_none first] at found
    cases found
    exact .inl ⟨rfl, rfl⟩
  | some pair =>
    rw [result_separated_of_some first, Option.map_eq_some_iff] at found
    obtain ⟨⟨others, last⟩, more, same⟩ := found
    cases same
    obtain ⟨rfl, rfl⟩ | ⟨place, final, isLast, read⟩ := followers_ends more
    · exact .inr ⟨_, pair.1, rfl, first⟩
    · exact .inr ⟨place, final, by rw [List.getLast?_cons, isLast]; rfl, read⟩

/-- A separator with an element after it reads something, be it only the separator. -/
theorem consuming_follower {α : Type} {separator : String} (solid : separator ≠ "")
    (element : Rule α) [Forward element] : Consuming (follower separator element) := by
  have := consuming_literal solid
  have : Consuming (separators separator) := by
    unfold separators
    infer_instance
  unfold follower
  infer_instance

/-- A repetition of a rule that reads something is a loop that ends. -/
theorem exists_loops_spacedMany {α : Type} (rule : Rule α) [Consuming rule] (text : List Char) :
    ∃ values last, Loops (fun _ => spaced rule) [] text values last ∧
      values.length + last.length ≤ text.length ∧
      (spacedMany rule text).result = some (values, last) := by
  obtain ⟨values, last, loop⟩ : ∃ values last,
      Loops (fun _ => spaced rule) [] text values last := Loops.exists_loops [] text
  exact ⟨values, last, loop, loop.length_add_length_le, loop.result_spacedMany⟩

/-- A list after its first element is a loop that ends. -/
theorem exists_loops_followers {α : Type} {separator : String} (solid : separator ≠ "")
    (element : Rule α) [Forward element] (text : List Char) :
    ∃ values last, Loops (fun _ => follower separator element) [] text values last ∧
      values.length + last.length ≤ text.length ∧
      (followers separator element text).result = some (values, last) := by
  have := consuming_follower solid element
  obtain ⟨values, last, loop⟩ : ∃ values last,
      Loops (fun _ => follower separator element) [] text values last :=
    Loops.exists_loops [] text
  exact ⟨values, last, loop, loop.length_add_length_le, loop.result_followers⟩

/-- What stands behind the word of an animation is read by a loop that ends. -/
theorem exists_loops_animation {text word rest : List Char}
    (found : (keyword "animate" text).result = some (word, rest)) :
    ∃ parts last, Loops animateRound [] rest parts last ∧
      parts.length + last.length ≤ rest.length ∧
      (animate text).result = (animation? parts).map fun phrase => (phrase, last) := by
  obtain ⟨parts, last, loop, read⟩ := exists_loops_animate found
  exact ⟨parts, last, loop, loop.length_add_length_le, read⟩

/-- Every text is read or rejected. -/
theorem read_ok_or_error (text : List Char) :
    (∃ found, read text = .ok found) ∨ ∃ failure, read text = .error failure := by
  cases read text with
  | ok found => exact .inl ⟨found, rfl⟩
  | error failure => exact .inr ⟨failure, rfl⟩

/-- Reading comes to an end. The rules for arguments, which are repeated after the words of
commands, those for names and numbers, and fixed texts leave a shorter end of the text; an optional
rule that does not apply and a look-ahead read nothing, and a list gives back the separators behind
its last element; a command is read from every text; and no rule looks at anything but ends of the
text, be it where it applies or where something is missed. So the repetitions, the lists and the
loop of an animation end after at most as many rounds as they read characters, although they go on
for as long as their rules apply, and every text is read or rejected. -/
theorem reading_ends :
    (∀ kind rule, Argument.rule? kind = some rule → (Forward rule ∧ Consuming rule) ∧
        (kind ≠ .animate → phraseOf kind = withArguments kind rule)) ∧
      (∀ rule ∈ [objectName, fileName, integer, signedNumber], Forward rule ∧ Consuming rule) ∧
      (∀ word, word ≠ "" → Forward (literal word) ∧ Consuming (literal word)) ∧
      (∀ {α : Type} (rule : Rule α) (text : List Char),
        ((spacedOptional rule text).result = some (none, text) ∨
          ∃ value rest, (spaced rule text).result = some (value, rest) ∧
            (spacedOptional rule text).result = some (some value, rest)) ∧
        ((notAhead rule text).result = some ((), text) ∨
          (notAhead rule text).result = none ∧ ∀ other : Rule Unit,
            (orElse (notAhead rule) other text).result = (other text).result)) ∧
      (∀ {α : Type} (separator : String) (element : Rule α) (text : List Char),
        (∀ middle, (separators separator text).result = some ((), middle) →
          (spaced element middle).result = none →
            (followers separator element text).result = some ([], text)) ∧
        ∀ values rest, (separated separator element text).result = some (values, rest) →
          values = [] ∧ rest = text ∨ ∃ place value, values.getLast? = some value ∧
            (element place).result = some (value, rest)) ∧
      (∀ text, ∃ found rest, (phrase text).result = some (found, rest)) ∧
      (∀ {α : Type} (rule : Rule α) [Built rule] (text : List Char),
        (∀ value rest, (rule text).result = some (value, rest) → rest <:+ text) ∧
          ∀ place expected, .missed place expected ∈ (rule text).trace → place <:+ text) ∧
      (∀ {α : Type} (rule : Rule α) [Consuming rule] (text : List Char),
        ∃ values last, Loops (fun _ => spaced rule) [] text values last ∧
          values.length + last.length ≤ text.length ∧
          (spacedMany rule text).result = some (values, last)) ∧
      (∀ {α : Type} (separator : String) (element : Rule α) [Forward element], separator ≠ "" →
        ∀ text, ∃ values last, Loops (fun _ => follower separator element) [] text values last ∧
          values.length + last.length ≤ text.length ∧
          (followers separator element text).result = some (values, last)) ∧
      (∀ text word rest, (keyword "animate" text).result = some (word, rest) →
        ∃ parts last, Loops animateRound [] rest parts last ∧
          parts.length + last.length ≤ rest.length ∧
          (animate text).result = (animation? parts).map fun phrase => (phrase, last)) ∧
      ∀ text, (∃ found, read text = .ok found) ∨ ∃ failure, read text = .error failure := by
  exact ⟨fun kind rule given => ⟨consuming_of_rule? given, phraseOf_of_rule? given⟩,
    fun rule member => consuming_of_mem_words member,
    fun word solid => ⟨inferInstance, consuming_literal solid⟩,
    fun rule text => ⟨spacedOptional_cases rule text, notAhead_cases rule text⟩,
    fun separator element text =>
      ⟨fun middle => followers_of_separators, fun values rest => separated_ends⟩,
    exists_result_phrase,
    fun rule built text => ⟨fun value rest => Forward.suffix, fun place expected => suffix_of_missed⟩,
    fun rule consuming text => exists_loops_spacedMany rule text,
    fun separator element forward solid => exists_loops_followers solid element,
    fun text word rest => exists_loops_animation, read_ok_or_error⟩

set_option maxRecDepth 100000 in
/-- A sequence reads arguments up to the semicolon, a list gives back the separators at its end, and
an animation is read by a loop of at most as many rounds as characters stand behind its word. -/
theorem reading_ends_animation :
    (Consuming Argument.seq ∧ phraseOf .seq = withArguments .seq Argument.seq) ∧
      Consuming signedNumber ∧ Consuming (literal ",") ∧
      (followers ";" clause " ; ;".toList).result = some ([], " ; ;".toList) ∧
      (∃ place value, [(⟨.bump, [.examine]⟩ : Clause)].getLast? = some value ∧
        (clause place).result = some (value, "; ;".toList)) ∧
      ([] <:+ "ab".toList ∧ "b".toList <:+ "b".toList) ∧
      (∃ values last, Loops (fun _ => spaced Argument.seq) [] " walk loop;".toList values last ∧
        values.length + last.length ≤ 11 ∧
        (spacedMany Argument.seq " walk loop;".toList).result = some (values, last)) ∧
      (∃ values last, Loops (fun _ => follower "," phrase) [] ", ,a".toList values last ∧
        values.length + last.length ≤ 4 ∧
        (followers "," phrase ", ,a".toList).result = some (values, last)) ∧
      ∃ parts last, Loops animateRound [] " mask a b 1".toList parts last ∧
        parts.length + last.length ≤ 11 ∧
        (animate "Animate mask a b 1".toList).result =
          (animation? parts).map fun phrase => (phrase, last) := by
  obtain ⟨arguments, words, texts, -, lists, -, places, repetitions, others, animations, -⟩ :=
    reading_ends
  have seq := arguments .seq Argument.seq rfl
  have run : (separators ";" " ; ;".toList).result = some ((), []) := by cbv
  have nothing : (spaced clause []).result = none := by cbv
  have list : (separated ";" clause "bump examine; ;".toList).result =
      some ([⟨.bump, [.examine]⟩], "; ;".toList) := by cbv
  obtain ⟨nil, -⟩ | last := (lists ";" clause "bump examine; ;".toList).2 _ _ list
  · cases nil
  refine ⟨⟨seq.1.2, seq.2 (by decide)⟩, (words signedNumber (by simp)).2,
    (texts "," (by decide)).2, (lists ";" clause _).1 [] run nothing, last,
    ⟨(places (literal "ab") "ab".toList).1 _ _ rfl,
      (places (literal "a") "b".toList).2 _ _ (List.mem_singleton.mpr rfl)⟩,
    repetitions Argument.seq " walk loop;".toList, others "," phrase (by decide) ", ,a".toList,
    animations "Animate mask a b 1".toList "Animate".toList " mask a b 1".toList (by cbv)⟩

end ActionString.Grammar
