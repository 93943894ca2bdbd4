import ActionString.Proofs.Fields
import ActionString.Proofs.Heads
import ActionString.Proofs.Numerals

/-!
# Teleporting and warping

A location is read alike for teleporting and for warping, with the name of a world before it or
without. Only a location that begins with a point is lost to teleporting without a world: it is
read as the name of one.
-/

namespace ActionString

open Grammar Rule Word

namespace Location

/-- The fields of a destination. -/
def fields (location : Location) : List (String × Value) :=
  [("coordinates", .position location.place.position)] ++
    location.altitude.toList.map (fun number => ("altitude", .altitude (altitudeOf number))) ++
    location.direction.toList.map fun digits => ("direction", .integer (Decimal.integerOf digits))

/-- A command without the fields of a destination is given them at the end. -/
theorem addTo_eq {command : Command}
    (fresh : ∀ name ∈ ["coordinates", "altitude", "direction"], name ∉ command.fieldNames)
    (location : Location) :
    location.addTo command =
      { command with fields := ⟨command.fields.entries ++ location.fields⟩ } := by
  obtain ⟨place, altitude, direction⟩ := location
  have names : command.fieldNames = command.fields.entries.map Prod.fst := rfl
  simp only [names, List.forall_mem_cons] at fresh
  obtain ⟨noPlace, noAltitude, noDirection, -⟩ := fresh
  cases altitude <;> cases direction <;>
    simp [addTo, fields, Command.replace_of_notMem, Command.fieldNames, OrderedMap.keys, noPlace,
      noAltitude, noDirection]

/-- The fields of a destination name no world. -/
theorem worldName_notMem (location : Location) : "worldName" ∉ location.fields.map Prod.fst := by
  obtain ⟨place, altitude, direction⟩ := location
  cases altitude <;> cases direction <;> simp [fields]

end Location

namespace Phrase

/-- The command of warping. -/
theorem command?_warp (location : Location) :
    (warp location).command? = some ⟨.warp, ⟨location.fields⟩⟩ := by
  rw [command?, resolve, Location.addTo_eq (by simp [Command.ofKind, Command.fieldNames])]
  rfl

/-- The command of teleporting to a destination. -/
theorem command?_teleport (location : Location) :
    (teleport none (some location)).command? = some ⟨.teleport, ⟨location.fields⟩⟩ := by
  rw [command?, resolve]
  rw [Location.addTo_eq (by simp [Command.ofKind, Command.fieldNames])]
  rfl

/-- The command of teleporting to a destination in a named world. -/
theorem command?_teleport_world (world : String) (location : Option Location) :
    (teleport (some world) location).command? =
      some ⟨.teleport, ⟨("worldName", .text world) ::
        (location.map Location.fields).getD []⟩⟩ := by
  cases location with
  | none => rfl
  | some location =>
    have names : ((Command.ofKind .teleport).replace "worldName" (.text world)).fieldNames =
        ["worldName"] := rfl
    rw [command?, resolve]
    rw [Location.addTo_eq (by simp [names])]
    rfl

end Phrase

namespace Grammar

/-- The word for warping is read with a location after it. -/
theorem result_phrase_warp {middle rest : List Char} {value : Phrase}
    (found : (phrase (CommandKind.warp.word.toList ++ middle)).result = some (value, rest))
    {command : Command} (stands : value.command? = some command) (kind : command.kind = .warp) :
    ∃ place, (location (strip middle)).result = some (place, rest) ∧ value = .warp place := by
  have known : CommandKind.warp ∈ CommandKind.recognized := by decide
  have word : (keyword "warp" (CommandKind.warp.word.toList ++ middle)).result =
      some ("warp".toList, middle) := result_keyword_of_same rfl middle
  rw [result_phrase_of_same known rfl, phraseOf, warp, result_bind_of_some word, result_bind,
    spaced_eq] at found
  cases place : (location (strip middle)).result with
  | some pair =>
    rw [place] at found
    cases found
    exact ⟨pair.1, rfl, rfl⟩
  | none =>
    rw [place] at found
    cases found
    cases stands
    cases kind

/-- The word for teleporting is read with a location where no world is named. -/
theorem result_phrase_teleport {middle rest : List Char} {place : Location}
    (unnamed : (worldName (strip middle)).result = none)
    (found : (location (strip middle)).result = some (place, rest)) :
    (phrase (CommandKind.teleport.word.toList ++ middle)).result =
      some (.teleport none (some place), rest) := by
  have word : (keyword "teleport" (CommandKind.teleport.word.toList ++ middle)).result =
      some ("teleport".toList, middle) := result_keyword_of_same rfl middle
  refine result_phrase_of_word (by decide) ?_
  rw [phraseOf, teleport, result_bind_of_some word]
  simp [result_bind, spacedOptional, result_optional, make, unnamed, found]

/-- The word for teleporting is read with the name of a world, and with a location if one
follows. -/
theorem result_phrase_teleport_world {middle after name : List Char}
    (named : (worldName (strip middle)).result = some (name, after)) :
    (phrase (CommandKind.teleport.word.toList ++ middle)).result =
      some (.teleport (some (String.ofList name)) ((location (strip after)).result.map Prod.fst),
        (location (strip after)).result.elim after Prod.snd) := by
  have word : (keyword "teleport" (CommandKind.teleport.word.toList ++ middle)).result =
      some ("teleport".toList, middle) := result_keyword_of_same rfl middle
  refine result_phrase_of_word (by decide) ?_
  rw [phraseOf, teleport, result_bind_of_some word]
  simp only [result_bind, spacedOptional, result_optional, make, spaced_eq, named, Option.bind_some,
    result_pure, Option.elim_some]
  cases (location (strip after)).result <;> rfl

end Grammar

/-- Where a source is read as warping, a location stands after the word. -/
theorem exists_location_of_warp {place : String} {trigger : Trigger} {command : Command}
    {commands : List (Option Command)} {others : List RawAction}
    (warps : parseRaw ("create warp " ++ place) = .ok (⟨trigger, some command :: commands⟩ :: others))
    (kind : command.kind = .warp) :
    ∃ location rest, (Grammar.location (strip (clean place.toList))).result = some (location, rest) ∧
      Continues rest commands others ∧ trigger = .create ∧
      command = ⟨.warp, ⟨location.fields⟩⟩ := by
  have text : clean ("create warp " ++ place).toList = Trigger.create.word.toList ++
      (' ' :: (CommandKind.warp.word.toList ++ (' ' :: clean place.toList))) := by
    rw [String.toList_append, clean_append]
    rfl
  obtain ⟨value, rest, found⟩ := exists_result_phrase
    (CommandKind.warp.word.toList ++ (' ' :: clean place.toList))
  obtain ⟨_, _, continues, same⟩ := (parseRaw_head_iff text found).mp warps
  obtain ⟨⟨rfl, stands, rfl⟩, rfl⟩ : (_ ∧ _ ∧ _) ∧ _ := by simpa using same
  obtain ⟨location, result, rfl⟩ := result_phrase_warp found stands.symm kind
  rw [strip_cons_of_isSpace (by decide)] at result
  rw [Phrase.command?_warp] at stands
  exact ⟨location, rest, result, continues, rfl, Option.some.inj stands⟩

/-- Where warping to a place is read, teleporting to it is read with the same destination, and
without a world, exactly when the place does not begin with a point. -/
theorem parseRaw_teleport_iff {place : String} {trigger : Trigger} {command : Command}
    {commands : List (Option Command)} {others : List RawAction}
    (warps : parseRaw ("create warp " ++ place) = .ok (⟨trigger, some command :: commands⟩ :: others))
    (kind : command.kind = .warp) :
    "worldName" ∉ command.fieldNames ∧
      (parseRaw ("create teleport " ++ place) =
          .ok (⟨trigger, some ⟨.teleport, command.fields⟩ :: commands⟩ :: others) ↔
        (strip (clean place.toList)).head? ≠ some '.') := by
  obtain ⟨location, rest, found, continues, rfl, rfl⟩ := exists_location_of_warp warps kind
  have text : clean ("create teleport " ++ place).toList = Trigger.create.word.toList ++
      (' ' :: (CommandKind.teleport.word.toList ++ (' ' :: clean place.toList))) := by
    rw [String.toList_append, clean_append]
    rfl
  have stripped : strip (' ' :: clean place.toList) = strip (clean place.toList) :=
    strip_cons_of_isSpace (by decide) _
  refine ⟨location.worldName_notMem, ?_, fun other => ?_⟩
  · -- A point begins the name of a world, so the command has a field that the destination has not.
    intro teleports point
    obtain ⟨after, front⟩ := List.head?_eq_some_iff.mp point
    have named : (worldName (strip (' ' :: clean place.toList))).result =
        (chars .worldName ('.' :: after)).result := by
      rw [stripped, front, result_worldName]
      rfl
    obtain ⟨pair, world⟩ := Option.isSome_iff_exists.mp
      ((isSome_chars .worldName ('.' :: after)).trans rfl)
    rw [world] at named
    obtain ⟨_, _, -, same⟩ :=
      (parseRaw_head_iff text (result_phrase_teleport_world named)).mp teleports
    simp only [Phrase.command?_teleport_world, List.cons.injEq, RawAction.mk.injEq,
      Option.some.injEq, Command.mk.injEq, OrderedMap.mk.injEq, true_and] at same
    exact location.worldName_notMem (by rw [same.1.1]; exact .head _)
  · -- Without a point, a location begins with a digit or with a number with a sign.
    have next := next_of_location found
    have unnamed : (worldName (strip (' ' :: clean place.toList))).result = none := by
      have digits : (digitNext (strip (clean place.toList)) ||
          signedNext (strip (clean place.toList))) = true := by
        simpa [numberNext, other] using next
      rw [stripped, result_worldName, if_pos digits]
    have read := result_phrase_teleport unnamed (by rw [stripped, found])
    refine (parseRaw_head_iff text read).mpr ⟨commands, others, continues, ?_⟩
    rw [Phrase.command?_teleport]

/-- Relative coordinates with a relative altitude are read alike for warping and teleporting. -/
theorem parseRaw_teleport_iff_signed :
    ∃ command, parseRaw ("create warp " ++ "+1 -2 +.5a") = .ok [⟨.create, [some command]⟩] ∧
      command.kind = .warp ∧
      parseRaw ("create teleport " ++ "+1 -2 +.5a") =
        .ok [⟨.create, [some ⟨.teleport, command.fields⟩]⟩] := by
  have read : Grammar.read (clean ("create warp " ++ "+1 -2 +.5a").toList) =
      .ok [⟨.create, [.warp ⟨.relative "+1" "-2", some "+.5", none⟩]⟩] := by decide +kernel
  have warps := parseRaw_eq_ok_iff.mpr ⟨_, read, rfl⟩
  have front : (strip (clean "+1 -2 +.5a".toList)).head? ≠ some '.' := by decide
  exact ⟨_, warps, rfl, (parseRaw_teleport_iff warps rfl).2.mpr front⟩

/-- A distance that begins with a point is warped to, but the same text is no destination to teleport
to: the point begins the name of a world, and no clause can be read with what is left. -/
theorem not_teleport_of_point :
    ∃ command, parseRaw "create warp .5N 3W" = .ok [⟨.create, [some command]⟩] ∧
      command.kind = .warp ∧ ∀ actions, parseRaw "create teleport .5N 3W" ≠ .ok actions := by
  have read : Grammar.read (clean "create warp .5N 3W".toList) =
      .ok [⟨.create, [.warp ⟨.absolute ".5" 'N' "3" 'W', none, none⟩]⟩] := by decide +kernel
  have rejected : (Grammar.read (clean "create teleport .5N 3W".toList)).isOk = false := by decide +kernel
  refine ⟨_, parseRaw_eq_ok_iff.mpr ⟨_, read, rfl⟩, rfl, fun actions accepted => ?_⟩
  obtain ⟨clauses, found, -⟩ := parseRaw_eq_ok_iff.mp accepted
  rw [found] at rejected
  cases rejected

/-- A word that is read as the name of a world: it has no separators, blanks and quotes, and begins
neither with a space or a digit nor with a sign that has a number after it. -/
structure NamesWorld (world : String) : Prop where
  plain : ∀ c ∈ world.toList, c ≠ ';' ∧ c ≠ ',' ∧ c ≠ ' ' ∧ c ≠ '\x22' ∧ isStray c = false
  solid : ∃ c ∈ world.toList.head?, isSpace c = false ∧ c.isDigit = false
  unsigned : ∀ sign ∈ ['+', '-'], ∀ digit : Char, digit.isDigit = true →
    ¬[sign, digit] <+: world.toList ∧ ¬[sign, '.', digit] <+: world.toList

/-- The name of a world is read up to the space after it. -/
theorem NamesWorld.result_worldName {world : String} (named : NamesWorld world)
    (more : List Char) :
    (worldName (world.toList ++ ' ' :: more)).result = some (world.toList, ' ' :: more) := by
  obtain ⟨c, front, -, noDigit⟩ := named.solid
  have nonempty : world.toList ≠ [] := by
    intro empty
    rw [empty] at front
    cases front
  have digit : digitNext (world.toList ++ ' ' :: more) = false := by
    rw [digitNext_append_space, digitNext, front]
    exact noDigit
  have signed : signedNext (world.toList ++ ' ' :: more) = false := by
    rw [signedNext_append_space, Bool.eq_false_iff]
    intro next
    obtain ⟨sign, known, digit, isDigit, begins⟩ := exists_of_signedNext next
    have never := named.unsigned sign known digit isDigit
    exact begins.elim never.1 never.2
  have accepted : ∀ c ∈ world.toList, CharClass.worldName.accepts c = true := by
    intro c member
    obtain ⟨semicolon, comma, space, quote, -⟩ := named.plain c member
    simp [CharClass.accepts, semicolon, comma, space, quote]
  have refused : ∀ c ∈ (' ' :: more).head?, CharClass.worldName.accepts c = false :=
    by
    rintro c ⟨⟩
    rfl
  rw [Grammar.result_worldName, digit, signed, result_chars nonempty accepted refused]
  rfl

/-- Where warping to a place is read, teleporting to the place in a named world is read with the
world and the same destination. -/
theorem parseRaw_teleport_world {world place : String} {trigger : Trigger} {command : Command}
    {commands : List (Option Command)} {others : List RawAction} (named : NamesWorld world)
    (warps : parseRaw ("create warp " ++ place) = .ok (⟨trigger, some command :: commands⟩ :: others))
    (kind : command.kind = .warp) :
    parseRaw ("create teleport " ++ world ++ " " ++ place) =
      .ok (⟨trigger, some ⟨.teleport, ⟨("worldName", .text world) :: command.fields.entries⟩⟩ ::
        commands⟩ :: others) := by
  obtain ⟨location, rest, found, continues, rfl, rfl⟩ := exists_location_of_warp warps kind
  have tidy : clean world.toList = world.toList :=
    clean_of_forall fun c member => (named.plain c member).2.2.2.2
  have text : clean ("create teleport " ++ world ++ " " ++ place).toList =
      Trigger.create.word.toList ++ (' ' :: (CommandKind.teleport.word.toList ++
        (' ' :: (world.toList ++ ' ' :: clean place.toList)))) := by
    simp only [String.toList_append, clean_append, tidy, List.append_assoc]
    rfl
  have start : strip (' ' :: (world.toList ++ ' ' :: clean place.toList)) =
      world.toList ++ ' ' :: clean place.toList := by
    obtain ⟨c, front, noSpace, -⟩ := named.solid
    obtain ⟨after, whole⟩ := List.head?_eq_some_iff.mp front
    rw [strip_cons_of_isSpace (by decide), whole, List.cons_append, strip_cons_of_not noSpace]
  have world := named.result_worldName (clean place.toList)
  have read := result_phrase_teleport_world (start.symm ▸ world)
  rw [strip_cons_of_isSpace (by decide), found] at read
  refine (parseRaw_head_iff text read).mpr ⟨commands, others, continues, ?_⟩
  rw [Phrase.command?_teleport_world, String.ofList_toList]
  rfl

/-- A world whose name begins with a sign and a point, and a destination with a direction. -/
theorem parseRaw_teleport_world_signed :
    ∃ command, parseRaw ("create warp " ++ ".5n3W 90, color red") =
        .ok [⟨.create, [some command, some ⟨.color, ⟨[("color", .color (Color.ofToken "red"))]⟩⟩]⟩] ∧
      command.kind = .warp ∧
      parseRaw ("create teleport " ++ "+.é" ++ " " ++ ".5n3W 90, color red") =
        .ok [⟨.create, [some ⟨.teleport, ⟨("worldName", .text "+.é") :: command.fields.entries⟩⟩,
          some ⟨.color, ⟨[("color", .color (Color.ofToken "red"))]⟩⟩]⟩] := by
  have read : Grammar.read (clean ("create warp " ++ ".5n3W 90, color red").toList) =
      .ok [⟨.create, [.warp ⟨.absolute ".5" 'n' "3" 'W', none, some "90"⟩,
        .arguments .color [.color "red"]]⟩] := by decide +kernel
  have warps := parseRaw_eq_ok_iff.mpr ⟨_, read, rfl⟩
  have named : NamesWorld "+.é" := by
    refine ⟨by decide, ⟨'+', rfl, by decide, by decide⟩, fun sign _ digit isDigit => ?_⟩
    constructor
    · rintro ⟨rest, whole⟩
      obtain ⟨-, rfl, -⟩ : sign = '+' ∧ digit = '.' ∧ _ := by simpa using whole
      cases isDigit
    · rintro ⟨rest, whole⟩
      obtain ⟨-, rfl, -⟩ : sign = '+' ∧ digit = 'é' ∧ _ := by simpa using whole
      cases isDigit
  exact ⟨_, warps, rfl, parseRaw_teleport_world named warps rfl⟩

end ActionString
