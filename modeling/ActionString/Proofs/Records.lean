import ActionString.Proofs.Canonical
import ActionString.Proofs.Schema
import ActionString.Proofs.Yields

/-!
# Records of commands

Whatever is written in a source, the commands that are read from it conform to the schemas of their
kinds. Each argument of a command stands for a field that the schema of the arguments has, and what
a phrase stands for is put together from such fields.
-/

namespace ActionString

open Grammar Rule Word
open CommandKind (argumentSchema)

/-- An argument stands for a field of a schema, if it stands for any. -/
def Argument.Fits (schema : Schema) (argument : Argument) : Prop :=
  ∀ field ∈ argument.field?, schema.Allows field

/-- A phrase of a kind stands for a command that conforms to the schema of the kind, if it stands
for any. -/
def Phrase.Describes (kind : CommandKind) (phrase : Phrase) : Prop :=
  ∀ command ∈ phrase.command?, command.Conforms kind kind.schema

namespace Grammar

/-! ### Arguments -/

section Arguments

variable {schema : Schema}

/-- An argument that stands for a field of the schema fits. -/
theorem fits_of_field {argument : Argument} {field : String} {value : Value} {range : Range}
    (stands : argument.field? = some (field, value)) (listed : (field, range) ∈ schema)
    (holds : range.Holds value) : argument.Fits schema := by
  intro found same
  rw [stands] at same
  cases same
  exact ⟨range, listed, holds⟩

/-- A word stands for a field when the values made of words have the form of the field. -/
theorem fits_make {use : String → Argument} {rule : Rule (List Char)} {field : String}
    {value : String → Value} {form : ValueForm}
    (stands : ∀ word, (use word).field? = some (field, value word))
    (formed : ∀ word, (value word).form = form) (listed : (field, .form form) ∈ schema) :
    Yields (Argument.Fits schema) (make use rule) :=
  .after _ fun _ => .pure (fits_of_field (stands _) listed (formed _))

theorem fits_target (listed : ("targetName", .form .text) ∈ schema) :
    Yields (Argument.Fits schema) Argument.target :=
  fits_make (fun _ => rfl) (fun _ => rfl) listed

theorem fits_name (listed : ("targetName", .form .text) ∈ schema) :
    Yields (Argument.Fits schema) Argument.name :=
  .after _ fun _ => .after _ fun _ => fits_target listed

theorem fits_resource (listed : ("resource", .form .text) ∈ schema) :
    Yields (Argument.Fits schema) Argument.resource :=
  fits_make (fun _ => rfl) (fun _ => rfl) listed

theorem fits_text (listed : ("text", .form .text) ∈ schema) :
    Yields (Argument.Fits schema) (make .text text) :=
  fits_make (fun _ => rfl) (fun _ => rfl) listed

theorem fits_level {use : LevelUse} (listed : (use.field, .form .float) ∈ schema) :
    Yields (Argument.Fits schema) (Argument.level use) :=
  fits_make (fun _ => rfl) (fun _ => rfl) listed

theorem fits_axes {use : AxesUse} (listed : (use.field, .form .vector) ∈ schema) :
    Yields (Argument.Fits schema) (Argument.axes use) :=
  .after _ fun _ => .after _ fun _ => .pure (fits_of_field rfl listed rfl)

/-- A word that means neither yes nor no would stand for nothing. -/
theorem fits_answer (listed : ("value", .form .bool) ∈ schema) :
    Yields (Argument.Fits schema) (make .answer answer) := by
  refine .after _ fun word => .pure fun field same => ?_
  obtain ⟨value, -, rfl⟩ := Option.map_eq_some_iff.mp same
  exact ⟨_, listed, rfl⟩

theorem fits_status (flag : Flag) (listed : (flag.field, .form .bool) ∈ schema) :
    Yields (Argument.Fits schema) (Argument.status flag) := by
  unfold Argument.status
  exact .after _ fun _ => .pure (fits_of_field rfl listed rfl)

/-- A flag that no word turns off is on. -/
theorem fits_overlap (listed : ("overlap", .on) ∈ schema) :
    Yields (Argument.Fits schema) (Argument.status .overlap) := by
  refine (Yields.literal "overlap").bind fun word same => .pure ?_
  subst same
  exact fits_of_field rfl listed rfl

theorem fits_whole {rule : Rule Argument} (fits : Yields (Argument.Fits schema) rule) :
    Yields (Argument.Fits schema) (whole rule) :=
  fits.bind fun _ holds => .after _ fun _ => .pure holds

/-- A parameter stands for the field of its key, if the range of the field has the value. -/
theorem fits_parameter {key value : Rule (List Char)} {meant : String → ParameterValue}
    {field : String} {range : Range}
    (named : Yields (fun spelt => Text.lowercase (String.ofList spelt) = field) key)
    (valued : Yields (fun read => range.Holds (meant (String.ofList read)).value) value)
    (listed : (field, range) ∈ schema) :
    Yields (Argument.Fits schema) (Argument.parameter key value meant) := by
  refine named.bind fun spelt same => .after _ fun _ => valued.bind fun read holds => .pure ?_
  subst same
  exact fits_of_field rfl listed holds

/-- Where the form of a parameter's value is known, the value need not be looked at. -/
theorem fits_parameter_of_form {key value : Rule (List Char)} {meant : String → ParameterValue}
    {field : String} {form : ValueForm}
    (named : Yields (fun spelt => Text.lowercase (String.ofList spelt) = field) key)
    (formed : ∀ read, (meant read).value.form = form) (listed : (field, .form form) ∈ schema) :
    Yields (Argument.Fits schema) (Argument.parameter key value meant) := by
  have valued : Yields (fun read => (Range.form form).Holds (meant (String.ofList read)).value)
      value := fun _ _ read _ => formed (String.ofList read)
  exact fits_parameter named valued listed

theorem fits_integer {key : Rule (List Char)} {field : String}
    (named : Yields (fun spelt => Text.lowercase (String.ofList spelt) = field) key)
    (listed : (field, .form .integer) ∈ schema) :
    Yields (Argument.Fits schema) (Argument.integerParameter key) :=
  fits_parameter_of_form named (fun _ => rfl) listed

theorem fits_number {key : Rule (List Char)} {field : String}
    (named : Yields (fun spelt => Text.lowercase (String.ofList spelt) = field) key)
    (listed : (field, .form .float) ∈ schema) :
    Yields (Argument.Fits schema) (Argument.numberParameter key) :=
  fits_parameter_of_form named (fun _ => rfl) listed

theorem fits_colorParameter {key : Rule (List Char)} {field : String}
    (named : Yields (fun spelt => Text.lowercase (String.ofList spelt) = field) key)
    (listed : (field, .form .color) ∈ schema) :
    Yields (Argument.Fits schema) (Argument.colorParameter key) :=
  fits_parameter_of_form named (fun _ => rfl) listed

theorem fits_tag (listed : ("tag", .form .integer) ∈ schema) :
    Yields (Argument.Fits schema) Argument.tag :=
  fits_integer (.lowercase_literal (by decide)) listed

theorem fits_mask (listed : ("mask", .form .text) ∈ schema) :
    Yields (Argument.Fits schema) Argument.mask :=
  fits_parameter_of_form (.lowercase_keyword (by decide)) (fun _ => rfl) listed

theorem fits_time (listed : ("time", .form .float) ∈ schema) :
    Yields (Argument.Fits schema) Argument.time :=
  fits_number (.lowercase_literal (by decide)) listed

theorem fits_wait (listed : ("wait", .form .float) ∈ schema) :
    Yields (Argument.Fits schema) Argument.wait :=
  fits_number (.lowercase_literal (by decide)) listed

theorem fits_radius (listed : ("radius", .form .float) ∈ schema) :
    Yields (Argument.Fits schema) Argument.radius :=
  fits_number (.lowercase_keyword (by decide)) listed

/-- A keyword stands for one of some words, whatever its spelling. -/
theorem holds_word {word : String} (small : ∀ c ∈ word.toList, c.toNat < 0x80 ∧ c.toLower = c)
    {choices : List String} (member : word ∈ choices) :
    Yields (fun read => (Range.words choices).Holds (ParameterValue.word (String.ofList read)).value)
      (keyword word) :=
  (Yields.lowercase_keyword small).mono fun _ same => ⟨word, member, congrArg Value.text same⟩

/-- A choice of keywords stands for one of them. -/
theorem holds_words {choices : List String}
    (small : ∀ word ∈ choices, ∀ c ∈ word.toList, c.toNat < 0x80 ∧ c.toLower = c) :
    Yields (fun read => (Range.words choices).Holds (ParameterValue.word (String.ofList read)).value)
      (firstOf (choices.map keyword)) :=
  Yields.firstOf_map fun word member => holds_word (small word member) member

theorem fits_switch (value : ("value", .form .bool) ∈ schema)
    (target : ("targetName", .form .text) ∈ schema) :
    Yields (Argument.Fits schema) Argument.switch :=
  .cons (fits_answer value) (.cons (fits_target target) .nil)

theorem fits_intensity (level : ("intensity", .form .float) ∈ schema)
    (tag : ("tag", .form .integer) ∈ schema) (target : ("targetName", .form .text) ∈ schema) :
    Yields (Argument.Fits schema) Argument.intensity :=
  .cons (fits_level level) (.cons (fits_tag tag) (.cons (fits_name target) .nil))

end Arguments

theorem fits_texture : Yields (Argument.Fits (argumentSchema .texture)) Argument.texture :=
  .cons (fits_mask (by decide)) (.cons (fits_tag (by decide)) (.cons (fits_name (by decide))
    (.cons (fits_resource (by decide)) .nil)))

theorem fits_sound : Yields (Argument.Fits (argumentSchema .sound)) Argument.sound :=
  .cons (fits_name (by decide)) (.cons (fits_status .loops (by decide))
    (.cons (fits_resource (by decide)) .nil))

theorem fits_corona : Yields (Argument.Fits (argumentSchema .corona)) Argument.corona :=
  .cons (fits_mask (by decide)) (.cons (fits_number (.lowercase_literal (by decide)) (by decide))
    (.cons (fits_name (by decide)) (.cons (fits_resource (by decide)) .nil)))

theorem fits_color : Yields (Argument.Fits (argumentSchema .color)) Argument.color :=
  .cons (fits_name (by decide)) (.cons (fits_make (fun _ => rfl) (fun _ => rfl) (by decide)) .nil)

theorem fits_move : Yields (Argument.Fits (argumentSchema .move)) Argument.move :=
  .cons (fits_axes (by decide)) (.cons (fits_status .loops (by decide))
    (.cons (fits_status .sync (by decide)) (.cons (fits_status .reset (by decide))
      (.cons (fits_name (by decide)) (.cons (fits_time (by decide))
        (.cons (fits_wait (by decide)) .nil))))))

theorem fits_rotate : Yields (Argument.Fits (argumentSchema .rotate)) Argument.rotate :=
  .cons (fits_axes (by decide)) (.cons (fits_status .sync (by decide))
    (.cons (fits_time (by decide)) (.cons (fits_status .loops (by decide))
      (.cons (fits_status .reset (by decide)) (.cons (fits_wait (by decide))
        (.cons (fits_name (by decide)) .nil))))))

theorem fits_scale : Yields (Argument.Fits (argumentSchema .scale)) Argument.scale :=
  .cons (fits_axes (by decide)) (.cons (fits_status .sync (by decide))
    (.cons (fits_time (by decide)) (.cons (fits_status .loops (by decide))
      (.cons (fits_status .reset (by decide)) (.cons (fits_wait (by decide))
        (.cons (fits_name (by decide)) .nil))))))

theorem fits_light : Yields (Argument.Fits (argumentSchema .light)) Argument.light := by
  have kinds : Yields _ Argument.lightType := @holds_words ["point", "spot"] (by decide)
  have effects : Yields _ Argument.lightEffect :=
    @holds_words ["blink", "fadein", "fadeout", "fire", "flicker", "flash", "pulse"] (by decide)
  exact .cons (fits_parameter (.lowercase_keyword (by decide)) kinds (by decide))
    (.cons (fits_colorParameter (.lowercase_keyword (by decide)) (by decide))
      (.cons (fits_number (.lowercase_keyword (by decide)) (by decide))
        (.cons (fits_radius (by decide)) (.cons (fits_name (by decide))
          (.cons (fits_parameter (.lowercase_keyword (by decide)) effects (by decide))
            (.cons (fits_time (by decide))
              (.cons (fits_number (.lowercase_literal (by decide)) (by decide))
                (.cons (fits_number (.lowercase_literal (by decide)) (by decide)) .nil))))))))

theorem fits_noise : Yields (Argument.Fits (argumentSchema .noise)) Argument.noise :=
  .cons (fits_overlap (by decide)) (.cons (fits_resource (by decide)) .nil)

theorem fits_opacity : Yields (Argument.Fits (argumentSchema .opacity)) Argument.opacity :=
  .cons (fits_level (by decide)) (.cons (fits_tag (by decide)) (.cons (fits_name (by decide)) .nil))

theorem fits_picture : Yields (Argument.Fits (argumentSchema .picture)) Argument.picture :=
  .cons (fits_integer (.lowercase_literal (by decide)) (by decide))
    (.cons (fits_name (by decide)) (.cons (fits_resource (by decide)) .nil))

theorem fits_media : Yields (Argument.Fits (argumentSchema .media)) Argument.media :=
  .cons (fits_name (by decide)) (.cons (fits_radius (by decide))
    (.cons (fits_resource (by decide)) .nil))

theorem fits_seq : Yields (Argument.Fits (argumentSchema .seq)) Argument.seq :=
  .cons (fits_name (by decide)) (.cons (fits_whole (fits_status .loops (by decide)))
    (.cons (fits_make (fun _ => rfl) (fun _ => rfl) (by decide)) .nil))

theorem fits_sign : Yields (Argument.Fits (argumentSchema .sign)) Argument.sign :=
  .cons (fits_colorParameter (.lowercase_keyword (by decide)) (by decide))
    (.cons (fits_colorParameter (.lowercase_keyword (by decide)) (by decide))
      (.cons (fits_name (by decide)) (.cons (fits_text (by decide)) .nil)))

theorem fits_url : Yields (Argument.Fits (argumentSchema .url)) Argument.url := by
  have frames : Yields _ (keyword "aw_3d") := @holds_word "aw_3d" (by decide) ["aw_3d"] (.head _)
  exact .cons (fits_parameter (.lowercase_keyword (by decide)) frames (by decide))
    (.cons (fits_resource (by decide)) .nil)

theorem fits_animate : Yields (Argument.Fits (CommandKind.schema .animate)) Argument.animate :=
  .cons (fits_tag (by decide)) (.cons (fits_whole (fits_status .mask (by decide))) .nil)

end Grammar

/-! ### Commands -/

/-- What fitting arguments stand for is in the schema. -/
theorem allows_of_fits {schema : Schema} {arguments : List Argument}
    (fit : ∀ argument ∈ arguments, argument.Fits schema) :
    ∀ field ∈ arguments.filterMap Argument.field?, schema.Allows field := by
  intro field member
  obtain ⟨argument, given, stands⟩ := List.mem_filterMap.mp member
  exact fit argument given field stands

/-- The fields of an animation are in its schema. -/
theorem Animation.allows_fields (animation : Animation) :
    ∀ field ∈ animation.fields, (CommandKind.schema .animate).Allows field := by
  intro field member
  rw [Animation.fields, List.mem_append] at member
  obtain fixed | frames := member
  · simp only [List.mem_cons, List.not_mem_nil, or_false] at fixed
    obtain rfl | rfl | rfl | rfl | rfl := fixed
    · exact .of_form .text (by decide) rfl
    · exact .of_form .text (by decide) rfl
    · exact .of_form .integer (by decide) rfl
    · exact .of_form .integer (by decide) rfl
    · exact .of_form .integer (by decide) rfl
  · split at frames
    · cases frames
    · rw [List.mem_singleton] at frames
      subst frames
      exact .of_form .integers (by decide) rfl

namespace Command.Conforms

/-- A command made of fitting arguments conforms to the schema of its kind. -/
theorem ofArguments {kind : CommandKind} {arguments : List Argument} {result : Command}
    (fit : ∀ argument ∈ arguments, argument.Fits kind.argumentSchema)
    (made : Command.ofArguments kind arguments = .ok result) :
    Conforms kind kind.schema result := by
  obtain ⟨command, filled, renamed⟩ := exists_of_bind_eq_ok made
  cases renamed
  exact ((ofKind kind _).setAll (allows_of_fits fit) filled).rename

/-- A mask option that is added to an animation is in its schema. -/
theorem withMaskStatus {command result : Command}
    (conforms : Conforms .animate (CommandKind.schema .animate) command)
    (made : command.withMaskStatus = .ok result) :
    Conforms .animate (CommandKind.schema .animate) result := by
  unfold Command.withMaskStatus at made
  split at made
  · cases made
    exact conforms
  · exact conforms.set (.of_form .bool (by decide) rfl) made

/-- An animation with fitting options conforms to its schema. -/
theorem animation {animation : Animation} {result : Command}
    (fit : ∀ option ∈ animation.options, option.Fits (CommandKind.schema .animate))
    (made : animation.command = .ok result) :
    Conforms .animate (CommandKind.schema .animate) result := by
  obtain ⟨options, filled, rest⟩ := exists_of_bind_eq_ok made
  obtain ⟨masked, set, finished⟩ := exists_of_bind_eq_ok rest
  have before := (ofKind .animate _).setAll (allows_of_fits fit) filled
  exact (before.withMaskStatus set).setAll animation.allows_fields finished

/-- Filling in a destination keeps a command conforming to a schema with the fields for it. -/
theorem addTo {kind : CommandKind} {schema : Schema} {command : Command}
    (conforms : Conforms kind schema command) (location : Location)
    (coordinates : ("coordinates", .form .position) ∈ schema)
    (altitude : ("altitude", .form .altitude) ∈ schema)
    (direction : ("direction", .form .integer) ∈ schema) :
    Conforms kind schema (location.addTo command) := by
  have placed : Conforms kind schema
      (command.replace "coordinates" (.position location.place.position)) :=
    conforms.replace (.of_form .position coordinates rfl)
  unfold Location.addTo
  cases location.altitude with
  | none =>
    cases location.direction with
    | none => exact placed
    | some digits => exact placed.replace (.of_form .integer direction rfl)
  | some number =>
    have raised : Conforms kind schema ((command.replace "coordinates"
        (.position location.place.position)).replace "altitude"
          (.altitude (Location.altitudeOf number))) :=
      placed.replace (.of_form .altitude altitude rfl)
    cases location.direction with
    | none => exact raised
    | some digits => exact raised.replace (.of_form .integer direction rfl)

end Command.Conforms

/-- What a phrase stands for is what it resolves to. -/
theorem Phrase.Describes.of_resolve {kind : CommandKind} {phrase : Phrase}
    (resolved : ∀ command, phrase.resolve = .ok command → command.Conforms kind kind.schema) :
    phrase.Describes kind := by
  intro command found
  rw [Phrase.command?] at found
  cases made : phrase.resolve with
  | error reason =>
    rw [made] at found
    cases found
  | ok other =>
    rw [made] at found
    cases found
    exact resolved command made

namespace Grammar

/-- A command word with fitting arguments describes a command of its kind. -/
theorem describes_withArguments {kind : CommandKind} {argument : Rule Argument}
    (fits : Yields (Argument.Fits (argumentSchema kind)) argument) :
    Yields (Phrase.Describes kind) (withArguments kind argument) :=
  .after _ fun _ => fits.spacedMany.bind fun _ fit =>
    .pure (.of_resolve fun _ made => Command.Conforms.ofArguments fit made)

theorem describes_examine : Yields (Phrase.Describes .examine) examine := by
  refine .after _ fun _ => .pure (.of_resolve fun command made => ?_)
  cases made
  exact .ofKind .examine _

/-- The options of an animation are what fits it before, between and after its names. -/
theorem describes_animate : Yields (Phrase.Describes .animate) animate := by
  have tail : Yields (fun part => ∀ option ∈ part.getLeft?, option.Fits (CommandKind.schema .animate))
      animateTail := by
    refine .cons (.map (fits_animate.mono ?_)) (.cons (.map ?_) .nil)
    · intro option fits other same
      cases same
      exact fits
    · intro text rest digits read other same
      cases same
  refine .after _ fun _ => fits_animate.spacedMany.bind fun before fitBefore =>
    .after _ fun object => fits_animate.spacedMany.bind fun between fitBetween =>
      .after _ fun texture => tail.spacedMany.bind fun parts fitParts =>
        .pure (.of_resolve fun command made => .animation ?_ made)
  intro option member
  rw [List.mem_append, List.mem_append] at member
  obtain (first | second) | third := member
  · exact fitBefore option first
  · exact fitBetween option second
  · obtain ⟨part, given, same⟩ := List.mem_filterMap.mp third
    exact fitParts part given option same

theorem describes_teleport : Yields (Phrase.Describes .teleport) teleport := by
  refine .after _ fun _ => .after _ fun world => .after _ fun location =>
    .pure (.of_resolve fun command made => ?_)
  have begun := Command.Conforms.ofKind .teleport (CommandKind.schema .teleport)
  cases world with
  | none =>
    cases location with
    | none =>
      cases made
      exact begun
    | some location =>
      cases made
      exact begun.addTo location (by decide) (by decide) (by decide)
  | some world =>
    have named : Command.Conforms .teleport (CommandKind.schema .teleport)
        ((Command.ofKind .teleport).replace "worldName" (.text world)) :=
      begun.replace (.of_form .text (by decide) rfl)
    cases location with
    | none =>
      cases made
      exact named
    | some location =>
      cases made
      exact named.addTo location (by decide) (by decide) (by decide)

theorem describes_warp : Yields (Phrase.Describes .warp) warp := by
  refine .after _ fun _ => .after _ fun location => .pure (.of_resolve fun command made => ?_)
  cases made
  exact (Command.Conforms.ofKind .warp _).addTo location (by decide) (by decide) (by decide)

theorem describes_unrecognized : Yields (Phrase.Describes .invalid) unrecognized := by
  refine .after _ fun _ => .pure (.of_resolve fun command made => ?_)
  cases made
  exact (Command.Conforms.ofKind .invalid _).replace (.of_form .text (by decide) rfl)

/-- The rule for the commands of a kind reads only what describes a command of the kind. -/
theorem describes_phraseOf (kind : CommandKind) :
    Yields (Phrase.Describes kind) (phraseOf kind) := by
  cases kind
  case texture => exact describes_withArguments fits_texture
  case animate => exact describes_animate
  case sound => exact describes_withArguments fits_sound
  case corona => exact describes_withArguments fits_corona
  case color => exact describes_withArguments fits_color
  case examine => exact describes_examine
  case solid => exact describes_withArguments (fits_switch (by decide) (by decide))
  case name => exact describes_withArguments (fits_target (by decide))
  case visible => exact describes_withArguments (fits_switch (by decide) (by decide))
  case move => exact describes_withArguments fits_move
  case rotate => exact describes_withArguments fits_rotate
  case scale => exact describes_withArguments fits_scale
  case light => exact describes_withArguments fits_light
  case noise => exact describes_withArguments fits_noise
  case opacity => exact describes_withArguments fits_opacity
  case ambient =>
    exact describes_withArguments (fits_intensity (by decide) (by decide) (by decide))
  case diffuse =>
    exact describes_withArguments (fits_intensity (by decide) (by decide) (by decide))
  case specular =>
    exact describes_withArguments (fits_intensity (by decide) (by decide) (by decide))
  case picture => exact describes_withArguments fits_picture
  case media => exact describes_withArguments fits_media
  case say => exact describes_withArguments (fits_text (by decide))
  case seq => exact describes_withArguments fits_seq
  case sign => exact describes_withArguments fits_sign
  case teleport => exact describes_teleport
  case warp => exact describes_warp
  case url => exact describes_withArguments fits_url
  case invalid => exact describes_unrecognized

/-! ### Clauses -/

/-- Every phrase that is read describes a command of some kind. -/
theorem describes_phrase : Yields (fun read => ∃ kind, Phrase.Describes kind read) phrase :=
  .firstOf_map fun kind _ => (describes_phraseOf kind).mono fun _ holds => ⟨kind, holds⟩

theorem describes_clause :
    Yields (fun read => ∀ part ∈ read.phrases, ∃ kind, Phrase.Describes kind part) clause :=
  .after _ fun _ => describes_phrase.separated.bind fun _ each => .after _ fun _ => .pure each

end Grammar

/-- The commands that are read from any source have fields with different names, all of them in the
schemas of their kinds and with values in the ranges that the schemas give. No field is a resource
without a name or a type. -/
theorem parseRaw_conforms {source : String} {actions : List RawAction}
    (accepted : parseRaw source = .ok actions) :
    ∀ action ∈ actions, ∀ command, some command ∈ action.commands →
      command.fieldNames.Nodup ∧ "resource" ∉ command.fieldNames ∧
        "commandType" ∉ command.fieldNames ∧
        ∀ field ∈ command.fields.entries, command.kind.schema.Allows field := by
  obtain ⟨clauses, read, rfl⟩ := parseRaw_eq_ok_iff.mp accepted
  obtain ⟨rest, list, -⟩ := read_eq_ok_iff.mp read
  intro action member command inside
  obtain ⟨clause, given, rfl⟩ := List.mem_map.mp member
  obtain ⟨phrase, part, stands⟩ := List.mem_map.mp inside
  obtain ⟨kind, describes⟩ := describes_clause.separated list clause given phrase part
  have conforms := describes command stands
  obtain rfl := conforms.kind_eq
  have unreserved {name : String} (there : name ∈ command.fieldNames) :
      name ≠ "resource" ∧ name ≠ "commandType" := by
    obtain ⟨entry, listed, rfl⟩ := conforms.exists_mem_schema there
    exact command.kind.unreserved_schema entry listed
  exact ⟨conforms.distinct, fun there => (unreserved there).1 rfl,
    fun there => (unreserved there).2 rfl, conforms.allowed⟩

/-- The commands of a source with options of several kinds. -/
theorem parseRaw_conforms_options :
    ∃ actions, parseRaw "create texture a mask=m tag=7 name=Bob, seq loopy loop" = .ok actions ∧
      ∀ action ∈ actions, ∀ command, some command ∈ action.commands →
        command.fieldNames.Nodup ∧ "resource" ∉ command.fieldNames ∧
          "commandType" ∉ command.fieldNames ∧
          ∀ field ∈ command.fields.entries, command.kind.schema.Allows field := by
  have printable : Printable
      [(.create, [.texture "a" (some "m") (some 7) (some "Bob"), .seq "loopy" (some true)])] := by
    decide +kernel
  have text : "create texture a mask=m tag=7 name=Bob, seq loopy loop" = printActions
      [(.create, [.texture "a" (some "m") (some 7) (some "Bob"), .seq "loopy" (some true)])] := by
    decide +kernel
  have tidy : ∀ c ∈ "create texture a mask=m tag=7 name=Bob, seq loopy loop".toList,
      isStray c = false := by decide
  have read := read_print printable
  rw [← text] at read
  have accepted := parseRaw_eq_ok_iff.mpr ⟨_, by rw [clean_of_forall tidy]; exact read, rfl⟩
  exact ⟨_, accepted, parseRaw_conforms accepted⟩

end ActionString
