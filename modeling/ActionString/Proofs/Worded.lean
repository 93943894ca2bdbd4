import ActionString.Proofs.Consuming

/-!
# Rules made of words

The rules for commands read words, and skip spaces between them. A word ends before a space or a
separator: no fixed text and no class of characters of these rules has one. So what passes through
the combinators and holds of such words holds of the rules for commands, which is seen by one
induction over how they are made of words. Only quoted text may have spaces and separators in it,
and only two kinds of commands read it.
-/

namespace ActionString.Grammar

open Rule Word

/-- No character of a word ends words, in either case. -/
abbrev Unbroken (word : String) : Prop :=
  ∀ w ∈ word.toList, ∀ c ∈ [' ', ',', ';'], c.toLower ≠ w.toLower

/-- Classes have no characters that end words. -/
theorem accepts_of_mem_ends (kind : CharClass) : ∀ c ∈ [' ', ',', ';'], kind.accepts c = false := by
  cases kind <;> decide

/-- A rule that is made of words by the combinators, with spaces skipped between them, and of quoted
text if quotes are allowed. -/
inductive Worded (quotes : Prop) : {α : Type} → Rule α → Prop where
  | pure {α : Type} (value : α) : Worded quotes (Pure.pure value : Rule α)
  | nil {α : Type} : Worded quotes (firstOf [] : Rule α)
  | literal {word : String} (unbroken : Unbroken word) : Worded quotes (Rule.literal word)
  | keyword {word : String} (unbroken : Unbroken word) : Worded quotes (Rule.keyword word)
  | chars (kind : CharClass) : Worded quotes (Rule.chars kind)
  | oneOf (kind : CharClass) : Worded quotes (Rule.oneOf kind)
  | run (kind : CharClass) : Worded quotes (Rule.run kind.accepts)
  | quotedText (allowed : quotes) : Worded quotes quotedText
  | spaces : Worded quotes Rule.spaces
  | notAhead {α : Type} {rule : Rule α} (ahead : Worded quotes rule) :
      Worded quotes (Rule.notAhead rule)
  | bind {α β : Type} {rule : Rule α} {next : α → Rule β} (first : Worded quotes rule)
      (second : ∀ value, Worded quotes (next value)) : Worded quotes (rule >>= next)
  | orElse {α : Type} {rule other : Rule α} (first : Worded quotes rule)
      (second : Worded quotes other) : Worded quotes (Rule.orElse rule other)
  | spacedMany {α : Type} {rule : Rule α} [Consuming rule] (each : Worded quotes rule) :
      Worded quotes (Rule.spacedMany rule)

namespace Worded

variable {α β : Type} {quotes : Prop}

/-- A rule that is made of words is made of the primitive rules. -/
theorem built {rule : Rule α} (worded : Worded quotes rule) : Built rule := by
  induction worded with
  | pure value => exact .pure value
  | nil => exact .fail
  | literal => exact .literal _
  | keyword => exact .keyword _
  | chars kind => exact .chars kind
  | oneOf kind => exact .oneOf kind
  | run kind => exact .run _
  | quotedText => infer_instance
  | spaces => infer_instance
  | notAhead _ ih => exact .notAhead ih
  | bind _ _ first second => exact .bind first second
  | orElse _ _ first second => exact .orElse first second
  | spacedMany _ ih => exact .spacedMany ih

theorem cons {rule : Rule α} {others : List (Rule α)} (first : Worded quotes rule)
    (second : Worded quotes (firstOf others)) : Worded quotes (firstOf (rule :: others)) :=
  orElse first second

/-- A choice is made of words when each rule of a family is. -/
theorem firstOf_map {ι : Type} {family : ι → Rule α} {indices : List ι}
    (each : ∀ index ∈ indices, Worded quotes (family index)) :
    Worded quotes (firstOf (indices.map family)) := by
  induction indices with
  | nil => exact nil
  | cons index indices ih =>
    rw [List.forall_mem_cons] at each
    exact cons each.1 (ih each.2)

theorem map (change : α → β) {rule : Rule α} (worded : Worded quotes rule) :
    Worded quotes (change <$> rule) :=
  bind worded fun _ => pure _

theorem optional {rule : Rule α} (worded : Worded quotes rule) : Worded quotes (optional rule) :=
  orElse (map some worded) (pure none)

theorem spaced {rule : Rule α} (worded : Worded quotes rule) : Worded quotes (spaced rule) :=
  bind spaces fun _ => worded

theorem spacedOptional {rule : Rule α} (worded : Worded quotes rule) :
    Worded quotes (spacedOptional rule) :=
  optional (spaced worded)

/-! ### Words -/

theorem make (use : String → α) {rule : Rule (List Char)} (worded : Worded quotes rule) :
    Worded quotes (make use rule) :=
  bind worded fun _ => pure _

theorem integer : Worded quotes integer := chars _

theorem pointed : Worded quotes pointed :=
  bind (run .digit) fun _ => bind (literal (by decide)) fun _ => bind integer fun _ => pure _

theorem number : Worded quotes number := cons pointed (cons integer nil)

theorem sign : Worded quotes sign := oneOf _

theorem signedNumber : Worded quotes signedNumber :=
  bind (optional sign) fun _ => bind number fun _ => pure _

theorem forceSignedNumber : Worded quotes forceSignedNumber :=
  bind sign fun _ => bind number fun _ => pure _

theorem answer : Worded quotes answer := by
  have words : ∀ word ∈ ["on", "true", "yes", "off", "false", "no"], Unbroken word := by decide
  exact firstOf_map fun word member => literal (words word member)

theorem text : Worded True text := cons (quotedText trivial) (cons (chars _) nil)

theorem whole {rule : Rule α} (worded : Worded quotes rule) : Worded quotes (whole rule) :=
  bind worded fun _ => bind (notAhead (oneOf _)) fun _ => pure _

/-! ### Arguments -/

theorem parameter {key value : Rule (List Char)} (meant : String → ParameterValue)
    (first : Worded quotes key) (second : Worded quotes value) :
    Worded quotes (Argument.parameter key value meant) :=
  bind first fun _ => bind (literal (by decide)) fun _ => bind second fun _ => pure _

theorem integerParameter {key : Rule (List Char)} (worded : Worded quotes key) :
    Worded quotes (Argument.integerParameter key) :=
  parameter _ worded integer

theorem numberParameter {key : Rule (List Char)} (worded : Worded quotes key) :
    Worded quotes (Argument.numberParameter key) :=
  parameter _ worded number

theorem colorParameter {key : Rule (List Char)} (worded : Worded quotes key) :
    Worded quotes (Argument.colorParameter key) :=
  parameter _ worded (chars _)

theorem name : Worded quotes Argument.name :=
  bind (literal (by decide)) fun _ => bind (literal (by decide)) fun _ => make _ (chars _)

theorem tag : Worded quotes Argument.tag := integerParameter (literal (by decide))

theorem mask : Worded quotes Argument.mask := parameter _ (keyword (by decide)) (chars _)

theorem time : Worded quotes Argument.time := numberParameter (literal (by decide))

theorem wait : Worded quotes Argument.wait := numberParameter (literal (by decide))

theorem radius : Worded quotes Argument.radius := numberParameter (keyword (by decide))

theorem status (flag : Flag) : Worded quotes (Argument.status flag) := by
  unfold Argument.status
  cases flag <;> dsimp only [Flag.offWord?]
  case overlap => exact make _ (literal (by decide))
  all_goals exact make _ (cons (literal (by decide)) (cons (literal (by decide)) nil))

theorem resource : Worded quotes Argument.resource := make _ (chars _)

theorem target : Worded quotes Argument.target := make _ (chars _)

theorem axes (use : AxesUse) : Worded quotes (Argument.axes use) :=
  bind signedNumber fun _ => bind (spacedMany signedNumber) fun _ => pure _

theorem level (use : LevelUse) : Worded quotes (Argument.level use) := make _ signedNumber

theorem lightType : Worded quotes Argument.lightType :=
  cons (keyword (by decide)) (cons (keyword (by decide)) nil)

theorem lightEffect : Worded quotes Argument.lightEffect := by
  have words : ∀ word ∈ ["blink", "fadein", "fadeout", "fire", "flicker", "flash", "pulse"],
      Unbroken word := by decide
  exact firstOf_map fun word member => keyword (words word member)

theorem texture : Worded quotes Argument.texture := cons mask (cons tag (cons name (cons resource nil)))

theorem sound : Worded quotes Argument.sound := cons name (cons (status .loops) (cons resource nil))

theorem corona : Worded quotes Argument.corona :=
  cons mask (cons (numberParameter (literal (by decide))) (cons name (cons resource nil)))

theorem color : Worded quotes Argument.color := cons name (cons (make _ (chars _)) nil)

theorem switch : Worded quotes Argument.switch := cons (make _ answer) (cons target nil)

theorem move : Worded quotes Argument.move :=
  cons (axes .distance) (cons (status .loops) (cons (status .sync) (cons (status .reset)
    (cons name (cons time (cons wait nil))))))

theorem rotate : Worded quotes Argument.rotate :=
  cons (axes .speed) (cons (status .sync) (cons time (cons (status .loops) (cons (status .reset)
    (cons wait (cons name nil))))))

theorem scale : Worded quotes Argument.scale :=
  cons (axes .factor) (cons (status .sync) (cons time (cons (status .loops) (cons (status .reset)
    (cons wait (cons name nil))))))

theorem light : Worded quotes Argument.light :=
  cons (parameter _ (keyword (by decide)) lightType)
    (cons (colorParameter (keyword (by decide)))
      (cons (numberParameter (keyword (by decide)))
        (cons radius (cons name
          (cons (parameter _ (keyword (by decide)) lightEffect)
            (cons time (cons (numberParameter (literal (by decide)))
              (cons (numberParameter (literal (by decide))) nil))))))))

theorem noise : Worded quotes Argument.noise := cons (status .overlap) (cons resource nil)

theorem opacity : Worded quotes Argument.opacity := cons (level .opacity) (cons tag (cons name nil))

theorem intensity : Worded quotes Argument.intensity :=
  cons (level .intensity) (cons tag (cons name nil))

theorem picture : Worded quotes Argument.picture :=
  cons (integerParameter (literal (by decide))) (cons name (cons resource nil))

theorem media : Worded quotes Argument.media := cons name (cons radius (cons resource nil))

theorem say : Worded True Argument.say := make _ text

theorem seq : Worded quotes Argument.seq :=
  cons name (cons (whole (status .loops)) (cons (make _ (chars _)) nil))

theorem signArgument : Worded True Argument.sign :=
  cons (colorParameter (keyword (by decide))) (cons (colorParameter (keyword (by decide)))
    (cons name (cons (make _ text) nil)))

theorem url : Worded quotes Argument.url :=
  cons (parameter _ (keyword (by decide)) (keyword (by decide))) (cons resource nil)

theorem animateOption : Worded quotes Argument.animate := cons tag (cons (whole (status .mask)) nil)

/-! ### Commands -/

theorem withArguments (kind : CommandKind) {argument : Rule Argument} [Consuming argument]
    (unbroken : Unbroken kind.word) (worded : Worded quotes argument) :
    Worded quotes (withArguments kind argument) :=
  bind (keyword unbroken) fun _ => bind (spacedMany worded) fun _ => pure _

theorem animateTail : Worded quotes animateTail :=
  cons (map _ animateOption) (cons (map _ (make _ integer)) nil)

theorem animate : Worded quotes animate :=
  bind (keyword (by decide)) fun _ => bind (spacedMany animateOption) fun _ =>
    bind (spaced (chars _)) fun _ => bind (spacedMany animateOption) fun _ =>
      bind (spaced (chars _)) fun _ => bind (spacedMany animateTail) fun _ => pure _

theorem worldName : Worded quotes worldName :=
  bind (notAhead (oneOf _)) fun _ => bind (notAhead forceSignedNumber) fun _ => chars _

theorem absolutePlace : Worded quotes absolutePlace :=
  bind number fun _ => bind (oneOf _) fun _ => bind spaces fun _ => bind number fun _ =>
    bind (oneOf _) fun _ => pure _

theorem relativePlace : Worded quotes relativePlace :=
  bind forceSignedNumber fun _ => bind spaces fun _ => bind forceSignedNumber fun _ => pure _

theorem altitude : Worded quotes altitude :=
  bind signedNumber fun _ => bind (keyword (by decide)) fun _ => pure _

theorem location : Worded quotes location :=
  bind (cons absolutePlace (cons relativePlace nil)) fun _ =>
    bind (spacedOptional altitude) fun _ =>
      bind (spacedOptional (make _ integer)) fun _ => pure _

theorem teleport : Worded quotes teleport :=
  bind (keyword (by decide)) fun _ => bind (spacedOptional (make _ worldName)) fun _ =>
    bind (spacedOptional location) fun _ => pure _

theorem warp : Worded quotes warp :=
  bind (keyword (by decide)) fun _ => bind (spaced location) fun _ => pure _

/-- The rule of every recognised kind but two is made of words without quotes. -/
theorem phraseOf_of_ne {kind : CommandKind} (known : kind ∈ CommandKind.recognized)
    (say : kind ≠ .say) (sign : kind ≠ .sign) : Worded quotes (phraseOf kind) := by
  rw [CommandKind.mem_recognized_iff] at known
  cases kind
  case texture => exact withArguments _ (by decide) texture
  case animate => exact animate
  case sound => exact withArguments _ (by decide) sound
  case corona => exact withArguments _ (by decide) corona
  case color => exact withArguments _ (by decide) color
  case examine => exact bind (keyword (by decide)) fun _ => pure _
  case solid => exact withArguments _ (by decide) switch
  case name => exact withArguments _ (by decide) target
  case visible => exact withArguments _ (by decide) switch
  case move => exact withArguments _ (by decide) move
  case rotate => exact withArguments _ (by decide) rotate
  case scale => exact withArguments _ (by decide) scale
  case light => exact withArguments _ (by decide) light
  case noise => exact withArguments _ (by decide) noise
  case opacity => exact withArguments _ (by decide) opacity
  case ambient => exact withArguments _ (by decide) intensity
  case diffuse => exact withArguments _ (by decide) intensity
  case specular => exact withArguments _ (by decide) intensity
  case picture => exact withArguments _ (by decide) picture
  case media => exact withArguments _ (by decide) media
  case say => exact absurd rfl say
  case seq => exact withArguments _ (by decide) seq
  case sign => exact absurd rfl sign
  case teleport => exact teleport
  case warp => exact warp
  case url => exact withArguments _ (by decide) url
  case invalid => exact absurd rfl known

/-- The rule of every recognised kind is made of words. -/
theorem phraseOf {kind : CommandKind} (known : kind ∈ CommandKind.recognized) :
    Worded True (phraseOf kind) := by
  by_cases say : kind = .say
  · subst say
    exact withArguments _ (by decide) Worded.say
  by_cases sign : kind = .sign
  · subst sign
    exact withArguments _ (by decide) signArgument
  exact phraseOf_of_ne known say sign

/-- The word of a trigger is made of words. -/
theorem trigger : Worded quotes trigger := by
  have words : ∀ trigger ∈ Trigger.all, Unbroken trigger.word := by decide
  exact firstOf_map fun trigger member => bind (keyword (words trigger member)) fun _ => pure _

end Worded

end ActionString.Grammar
