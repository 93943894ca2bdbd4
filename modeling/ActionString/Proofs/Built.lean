import ActionString.Grammar.Clause

/-!
# Rules made of combinators

Every rule of the grammar is made of a few primitive rules by sequence, ordered choice, look-ahead
and repetition. What holds of the primitive rules and passes through these four holds of all rules,
so such a property is proved by one induction over how a rule is made.
-/

namespace ActionString.Grammar

open Rule Word

/-- A rule that is made of the primitive rules by the combinators. -/
class inductive Built : {α : Type} → Rule α → Prop where
  | pure {α : Type} (value : α) : Built (Pure.pure value : Rule α)
  | fail {α : Type} : Built (Rule.fail : Rule α)
  | literal (word : String) : Built (Rule.literal word)
  | keyword (word : String) : Built (Rule.keyword word)
  | chars (kind : CharClass) : Built (Rule.chars kind)
  | oneOf (kind : CharClass) : Built (Rule.oneOf kind)
  | run (accepts : Char → Bool) : Built (Rule.run accepts)
  | endOfInput : Built Rule.endOfInput
  | bind {α β : Type} {rule : Rule α} {next : α → Rule β} (first : Built rule)
      (second : ∀ value, Built (next value)) : Built (rule >>= next)
  | orElse {α : Type} {rule other : Rule α} (first : Built rule) (second : Built other) :
      Built (Rule.orElse rule other)
  | notAhead {α : Type} {rule : Rule α} (ahead : Built rule) : Built (Rule.notAhead rule)
  | spacedMany {α : Type} {rule : Rule α} (each : Built rule) : Built (Rule.spacedMany rule)
  | followers {α : Type} (separator : String) {element : Rule α} (each : Built element) :
      Built (Rule.followers separator element)

namespace Built

variable {α β : Type}

instance (value : α) : Built (Pure.pure value : Rule α) := pure value

instance (value : α) : Built (succeed value) := pure value

instance : Built (Rule.fail : Rule α) := fail

instance (word : String) : Built (Rule.literal word) := literal word

instance (word : String) : Built (Rule.keyword word) := keyword word

instance (kind : CharClass) : Built (Rule.chars kind) := chars kind

instance (kind : CharClass) : Built (Rule.oneOf kind) := oneOf kind

instance (accepts : Char → Bool) : Built (Rule.run accepts) := run accepts

instance : Built Rule.endOfInput := endOfInput

instance (rule : Rule α) (next : α → Rule β) [first : Built rule]
    [second : ∀ value, Built (next value)] : Built (rule >>= next) := bind first second

instance (change : α → β) (rule : Rule α) [made : Built rule] : Built (change <$> rule) :=
  bind made fun _ => pure _

instance (rule other : Rule α) [first : Built rule] [second : Built other] :
    Built (Rule.orElse rule other) := orElse first second

instance : Built (firstOf ([] : List (Rule α))) := fail

instance (rule : Rule α) (others : List (Rule α)) [first : Built rule]
    [second : Built (firstOf others)] : Built (firstOf (rule :: others)) := orElse first second

instance (rule : Rule α) [Built rule] : Built (optional rule) :=
  inferInstanceAs (Built (Rule.orElse _ _))

instance (rule : Rule α) [ahead : Built rule] : Built (Rule.notAhead rule) := notAhead ahead

instance : Built spaces := inferInstanceAs (Built (Rule.run _ >>= fun _ => _))

instance (rule : Rule α) [Built rule] : Built (spaced rule) :=
  inferInstanceAs (Built (spaces >>= fun _ => rule))

instance (rule : Rule α) [Built rule] : Built (spacedOptional rule) :=
  inferInstanceAs (Built (optional _))

instance (rule : Rule α) [each : Built rule] : Built (Rule.spacedMany rule) := spacedMany each

instance (separator : String) : Built (separators separator) := by
  unfold separators
  infer_instance

instance (separator : String) (element : Rule α) [each : Built element] :
    Built (Rule.followers separator element) := followers separator each

instance (separator : String) (element : Rule α) [Built element] :
    Built (separated separator element) := by
  have next (first : Option α) : Built (match first with
      | none => Pure.pure []
      | some first => do return first :: (← Rule.followers separator element) :
        Rule (List α)) := by
    cases first <;> infer_instance
  unfold separated
  infer_instance

/-! ### The rules of the grammar -/

instance (use : String → α) (rule : Rule (List Char)) [Built rule] : Built (make use rule) := by
  unfold make
  infer_instance

instance : Built integer := inferInstanceAs (Built (Rule.chars _))

instance : Built objectName := inferInstanceAs (Built (Rule.chars _))

instance : Built resourcePath := inferInstanceAs (Built (Rule.chars _))

instance : Built fileName := inferInstanceAs (Built (Rule.chars _))

instance : Built colorCode := inferInstanceAs (Built (Rule.chars _))

instance : Built Word.sign := inferInstanceAs (Built (Rule.oneOf _))

instance : Built pointed := by
  unfold pointed
  infer_instance

instance : Built number := inferInstanceAs (Built (firstOf _))

instance : Built signedNumber := by
  unfold signedNumber
  infer_instance

instance : Built forceSignedNumber := by
  unfold forceSignedNumber
  infer_instance

instance : Built answer := inferInstanceAs (Built (firstOf _))

instance : Built quotedText := by
  unfold quotedText
  infer_instance

instance : Built text := inferInstanceAs (Built (firstOf _))

instance (rule : Rule α) [Built rule] : Built (whole rule) := by
  unfold whole
  infer_instance

instance (key value : Rule (List Char)) (meant : String → ParameterValue) [Built key]
    [Built value] : Built (Argument.parameter key value meant) := by
  unfold Argument.parameter
  infer_instance

instance : Built Argument.name := by
  unfold Argument.name
  infer_instance

instance (flag : Flag) : Built (Argument.status flag) := by
  unfold Argument.status
  cases flag <;> dsimp only [Flag.offWord?] <;> infer_instance

instance (use : AxesUse) : Built (Argument.axes use) := by
  unfold Argument.axes
  infer_instance

instance : Built Argument.tag := inferInstanceAs (Built (Argument.parameter _ _ _))

instance : Built Argument.mask := inferInstanceAs (Built (Argument.parameter _ _ _))

instance : Built Argument.time := inferInstanceAs (Built (Argument.parameter _ _ _))

instance : Built Argument.wait := inferInstanceAs (Built (Argument.parameter _ _ _))

instance : Built Argument.radius := inferInstanceAs (Built (Argument.parameter _ _ _))

instance (key : Rule (List Char)) [Built key] : Built (Argument.integerParameter key) :=
  inferInstanceAs (Built (Argument.parameter _ _ _))

instance (key : Rule (List Char)) [Built key] : Built (Argument.numberParameter key) :=
  inferInstanceAs (Built (Argument.parameter _ _ _))

instance (key : Rule (List Char)) [Built key] : Built (Argument.colorParameter key) :=
  inferInstanceAs (Built (Argument.parameter _ _ _))

instance : Built Argument.resource := inferInstanceAs (Built (make _ _))

instance : Built Argument.target := inferInstanceAs (Built (make _ _))

instance (use : LevelUse) : Built (Argument.level use) := inferInstanceAs (Built (make _ _))

instance : Built Argument.lightType := inferInstanceAs (Built (firstOf _))

instance : Built Argument.lightEffect := inferInstanceAs (Built (firstOf _))

instance : Built Argument.texture := inferInstanceAs (Built (firstOf _))

instance : Built Argument.sound := inferInstanceAs (Built (firstOf _))

instance : Built Argument.corona := inferInstanceAs (Built (firstOf _))

instance : Built Argument.color := inferInstanceAs (Built (firstOf _))

instance : Built Argument.switch := inferInstanceAs (Built (firstOf _))

instance : Built Argument.move := inferInstanceAs (Built (firstOf _))

instance : Built Argument.rotate := inferInstanceAs (Built (firstOf _))

instance : Built Argument.scale := inferInstanceAs (Built (firstOf _))

instance : Built Argument.light := inferInstanceAs (Built (firstOf _))

instance : Built Argument.noise := inferInstanceAs (Built (firstOf _))

instance : Built Argument.opacity := inferInstanceAs (Built (firstOf _))

instance : Built Argument.intensity := inferInstanceAs (Built (firstOf _))

instance : Built Argument.picture := inferInstanceAs (Built (firstOf _))

instance : Built Argument.media := inferInstanceAs (Built (firstOf _))

instance : Built Argument.seq := inferInstanceAs (Built (firstOf _))

instance : Built Argument.sign := inferInstanceAs (Built (firstOf _))

instance : Built Argument.url := inferInstanceAs (Built (firstOf _))

instance : Built Argument.animate := inferInstanceAs (Built (firstOf _))

instance : Built Argument.say := inferInstanceAs (Built (make _ _))

instance : Built animateTail := inferInstanceAs (Built (firstOf _))

instance : Built animate := by
  unfold animate
  infer_instance

instance : Built worldName := by
  unfold worldName
  infer_instance

instance : Built absolutePlace := by
  unfold absolutePlace
  infer_instance

instance : Built relativePlace := by
  unfold relativePlace
  infer_instance

instance : Built altitude := by
  unfold altitude
  infer_instance

instance : Built location := by
  unfold location
  infer_instance

instance : Built teleport := by
  unfold teleport
  infer_instance

instance : Built warp := by
  unfold warp
  infer_instance

instance (kind : CommandKind) (argument : Rule Argument) [Built argument] :
    Built (withArguments kind argument) := by
  unfold withArguments
  infer_instance

/-- The rule of every kind is built. -/
instance (kind : CommandKind) : Built (phraseOf kind) := by
  cases kind
  case animate => exact inferInstanceAs (Built animate)
  case examine => exact inferInstanceAs (Built (Rule.keyword _ >>= fun _ => Pure.pure _))
  case teleport => exact inferInstanceAs (Built teleport)
  case warp => exact inferInstanceAs (Built warp)
  case invalid => exact inferInstanceAs (Built (Rule.run _ >>= fun text => Pure.pure _))
  all_goals exact inferInstanceAs (Built (withArguments _ _))

instance : Built phrase := by
  have choice (kinds : List CommandKind) : Built (firstOf (kinds.map phraseOf)) := by
    induction kinds with
    | nil => exact inferInstanceAs (Built Rule.fail)
    | cons kind kinds ih => exact inferInstanceAs (Built (firstOf (_ :: kinds.map phraseOf)))
  exact choice _

instance : Built trigger := inferInstanceAs (Built (firstOf (_ :: _ :: _ :: _ :: _ :: [])))

instance : Built clause := by
  unfold clause
  infer_instance

instance : Built clauses := by
  unfold clauses
  infer_instance

end Built

end ActionString.Grammar
