import ActionString.Grammar.Trace
import ActionString.Text.Folding

/-!
# Rules

A rule reads the front of a text. When it applies it gives a value and the text after what it read,
and in any case it leaves a trace. Choices are ordered: an alternative is tried only when the ones
before it do not apply, and always from the same place.

Rules that read words take contiguous text. Rules that read lists of words skip spaces before each
of them, and give the spaces back when no word follows.
-/

namespace ActionString.Grammar

/-- What a rule makes of a text: a value with the text after it, when the rule applies, and the
trace that is left. -/
structure Outcome (α : Type) where
  result : Option (α × List Char)
  trace : List Event
  deriving DecidableEq, Repr

/-- A rule that reads values of a type. -/
abbrev Rule (α : Type) : Type := List Char → Outcome α

namespace Rule

variable {α β : Type}

/-- Reads nothing. -/
def succeed (value : α) : Rule α := fun text => ⟨some (value, text), []⟩

/-- Applies to no text. -/
def fail : Rule α := fun _ => ⟨none, []⟩

/-- Reads with one rule and goes on with the next, which may depend on the value read. -/
def andThen (rule : Rule α) (next : α → Rule β) : Rule β := fun text =>
  let first := rule text
  match first.result with
  | none => ⟨none, first.trace⟩
  | some (value, rest) =>
    let second := next value rest
    ⟨second.result, first.trace ++ second.trace⟩

/-- Reads with one rule, or with the other where the first does not apply. -/
def orElse (rule other : Rule α) : Rule α := fun text =>
  let first := rule text
  match first.result with
  | some found => ⟨some found, first.trace⟩
  | none =>
    let second := other text
    ⟨second.result, first.trace ++ second.trace⟩

/-- Where the first rule does not apply, neither do the two in sequence. -/
theorem andThen_of_none {rule : Rule α} {next : α → Rule β} {text : List Char}
    (missed : (rule text).result = none) :
    andThen rule next text = ⟨none, (rule text).trace⟩ := by
  simp only [andThen, missed]

/-- Where the first rule applies, the next one decides about the text that is left. -/
theorem andThen_of_some {rule : Rule α} {next : α → Rule β} {text rest : List Char} {value : α}
    (found : (rule text).result = some (value, rest)) :
    andThen rule next text =
      ⟨(next value rest).result, (rule text).trace ++ (next value rest).trace⟩ := by
  simp only [andThen, found]

/-- A rule that applies is not passed over. -/
theorem orElse_of_some {rule other : Rule α} {text : List Char} {found : α × List Char}
    (applies : (rule text).result = some found) :
    orElse rule other text = ⟨some found, (rule text).trace⟩ := by
  simp only [orElse, applies]

/-- Where a rule does not apply, the other reads from the same place. -/
theorem orElse_of_none {rule other : Rule α} {text : List Char}
    (missed : (rule text).result = none) :
    orElse rule other text =
      ⟨(other text).result, (rule text).trace ++ (other text).trace⟩ := by
  simp only [orElse, missed]

instance : Monad Rule where
  pure := succeed
  bind := andThen

/-- Reads with the first rule of a list that applies. -/
def firstOf : List (Rule α) → Rule α
  | [] => fail
  | rule :: others => orElse rule (firstOf others)

/-- Reads by a plain function, and notes what it looked for where it does not apply. -/
def expecting (expected : Expected) (read : List Char → Option (α × List Char)) : Rule α :=
  fun text =>
    match read text with
    | some found => ⟨some found, []⟩
    | none => ⟨none, [.missed text expected]⟩

/-- Reads a fixed text. -/
def literal (word : String) : Rule (List Char) :=
  expecting (.literal word) fun text =>
    (word.toList.isPrefixOf? text).map fun rest => (word.toList, rest)

/-- Reads a word in any ASCII case, and gives it as it is spelt. -/
def keyword (word : String) : Rule (List Char) :=
  expecting (.literal word) (Text.stripFolded word.toList)

/-- Reads one or more characters of a class, as many as there are. -/
def chars (kind : CharClass) : Rule (List Char) :=
  expecting (.charClass kind.description) fun text =>
    if (text.takeWhile kind.accepts).isEmpty then none
    else some (text.takeWhile kind.accepts, text.dropWhile kind.accepts)

/-- Reads one character of a class. -/
def oneOf (kind : CharClass) : Rule Char :=
  expecting (.charClass kind.description) fun
    | [] => none
    | c :: rest => if kind.accepts c then some (c, rest) else none

/-- Reads the characters at the front that satisfy a condition, possibly none. -/
def run (accepts : Char → Bool) : Rule (List Char) := fun text =>
  ⟨some (text.takeWhile accepts, text.dropWhile accepts), []⟩

/-- Applies at the end of the text. -/
def endOfInput : Rule Unit :=
  expecting .endOfInput fun text => if text.isEmpty then some ((), []) else none

/-- Looks ahead: applies, without reading anything, where the given rule does not. -/
def notAhead (rule : Rule α) : Rule Unit := fun text =>
  let ahead := rule text
  ⟨if ahead.result.isSome then none else some ((), text), .enter :: ahead.trace ++ [.leave]⟩

/-- Looking ahead reads nothing. -/
theorem eq_of_notAhead {rule : Rule α} {text rest : List Char} {value : Unit}
    (applies : (notAhead rule text).result = some (value, rest)) : rest = text := by
  unfold notAhead at applies
  dsimp only at applies
  split at applies
  · contradiction
  · exact (congrArg Prod.snd (Option.some.inj applies)).symm

/-- Reads with a rule where it applies, and nothing elsewhere. -/
def optional (rule : Rule α) : Rule (Option α) :=
  orElse (some <$> rule) (succeed none)

/-- A space is a blank or one of the control characters below it. -/
def isSpace (c : Char) : Bool := c ≤ ' '

/-- Skips spaces. -/
def spaces : Rule Unit := do
  let _ ← run isSpace
  return ()

/-- Skips spaces and reads with a rule. -/
def spaced (rule : Rule α) : Rule α := do
  spaces
  rule

/-- Skips spaces and reads with a rule where it applies; reads nothing, not even the spaces,
elsewhere. -/
def spacedOptional (rule : Rule α) : Rule (Option α) :=
  optional (spaced rule)

/-- Reads with a rule again and again, skipping spaces before each time, until it no longer
applies. A rule that reads nothing ends the repetition. -/
def spacedMany (rule : Rule α) (text : List Char) : Outcome (List α) :=
  let first := spaced rule text
  match first.result with
  | none => ⟨some ([], text), first.trace⟩
  | some (value, rest) =>
    if rest.length < text.length then
      let others := spacedMany rule rest
      ⟨others.result.map fun (values, last) => (value :: values, last),
        first.trace ++ others.trace⟩
    else ⟨some ([value], rest), first.trace⟩
termination_by text.length

/-- Reads one or more separators with spaces around them. -/
def separators (separator : String) : Rule Unit := do
  spaces
  let _ ← literal separator
  let _ ← spacedMany (literal separator)
  return ()

/-- Reads separators and an element after them, again and again. Separators without an element
after them are not read. -/
def followers (separator : String) (element : Rule α) (text : List Char) : Outcome (List α) :=
  let first := andThen (separators separator) (fun _ => spaced element) text
  match first.result with
  | none => ⟨some ([], text), first.trace⟩
  | some (value, rest) =>
    if rest.length < text.length then
      let others := followers separator element rest
      ⟨others.result.map fun (values, last) => (value :: values, last),
        first.trace ++ others.trace⟩
    else ⟨some ([value], rest), first.trace⟩
termination_by text.length

/-- Reads a list of elements with separators between them, possibly none. -/
def separated (separator : String) (element : Rule α) : Rule (List α) := do
  match ← spacedOptional element with
  | none => return []
  | some first => return first :: (← followers separator element)

end Rule

end ActionString.Grammar
