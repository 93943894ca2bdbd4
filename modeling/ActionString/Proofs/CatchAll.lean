import ActionString.Proofs.Casing
import ActionString.Proofs.Completion
import ActionString.Proofs.Numerals

/-!
# Arguments of one class of characters

The arguments of many kinds of commands are all made of one class of characters, and the last
alternative is any word of the class. So reading them is stuck only at a character of no such word,
and until then everything that is looked for can come, since whatever is made of the class is read.
-/

namespace ActionString.Grammar

open Rule Word

variable {α β : Type} {accepts : Char → Bool}

/-- Everything that a rule reads is made of accepted characters, and so is some text with each of
the items that it looks for. -/
structure Over (accepts : Char → Bool) (rule : Rule α) : Prop where
  reads ⦃front rest : List Char⦄ ⦃value : α⦄ :
    (rule (front ++ rest)).result = some (value, rest) → ∀ c ∈ front, accepts c = true
  misses ⦃before after : List Char⦄ ⦃item : Expected⦄ : Misses rule before after item →
    (∀ c ∈ before, accepts c = true) ∧ ∃ more, (∀ c ∈ more, accepts c = true) ∧ item.Opens more

namespace Over

theorem pure (value : α) : Over accepts (Pure.pure value : Rule α) where
  reads front rest last found := by
    have same : front ++ rest = rest := congrArg Prod.snd (Option.some.inj found)
    rw [List.append_left_eq_self.mp same]
    exact List.forall_mem_nil _
  misses _ _ _ misses := absurd misses Misses.not_pure

theorem nil : Over accepts (firstOf ([] : List (Rule α))) where
  reads _ _ _ found := by cases found
  misses _ _ _ misses := absurd misses Misses.not_nil

theorem literal {word : String} (accepted : ∀ c ∈ word.toList, accepts c = true) :
    Over accepts (Rule.literal word) where
  reads front rest value found := by
    have whole := (eq_append_of_result_literal found).2
    rwa [List.append_cancel_right whole]
  misses before after item misses := by
    obtain ⟨rfl, rfl⟩ := misses.literal
    exact ⟨List.forall_mem_nil _, word.toList, accepted, List.prefix_refl _⟩

/-- A word in any case is made of accepted characters if these are accepted in either case. -/
theorem keyword {word : String} (either : ∀ c : Char, accepts c.toLower = accepts c)
    (accepted : ∀ c ∈ word.toList, accepts c = true) : Over accepts (Rule.keyword word) where
  reads front rest value found := by
    have spelling := stripFolded_of_result_keyword found
    have whole := Text.eq_append_of_stripFolded spelling
    have same := Text.map_toLower_of_stripFolded spelling
    rw [List.append_cancel_right whole]
    intro c member
    obtain ⟨d, inside, lower⟩ := List.mem_map.mp (same ▸ List.mem_map_of_mem member)
    rw [← either, ← lower, either]
    exact accepted d inside
  misses before after item misses := by
    obtain ⟨rfl, rfl⟩ := misses.keyword
    exact ⟨List.forall_mem_nil _, word.toList, accepted, List.prefix_refl _⟩

/-- A word of a class is made of accepted characters if all characters of the class are. -/
theorem chars {kind : CharClass} (accepted : ∀ c, kind.accepts c = true → accepts c = true)
    {c : Char} (some : kind.accepts c = true) : Over accepts (Rule.chars kind) where
  reads front rest value found := by
    obtain ⟨whole, -, made, -⟩ := of_result_chars found
    rw [List.append_cancel_right whole]
    exact fun c member => accepted c (made c member)
  misses before after item misses := by
    obtain ⟨rfl, rfl⟩ := misses.chars
    exact ⟨List.forall_mem_nil _, [c], List.forall_mem_singleton.mpr (accepted c some),
      kind, rfl, c, rfl, some⟩

theorem run {kind : CharClass} (accepted : ∀ c, kind.accepts c = true → accepts c = true) :
    Over accepts (Rule.run kind.accepts) where
  reads front rest value found := by
    have left : (front ++ rest).dropWhile kind.accepts = rest :=
      congrArg Prod.snd (Option.some.inj found)
    have whole := List.takeWhile_append_dropWhile (p := kind.accepts) (l := front ++ rest)
    rw [left] at whole
    rw [← List.append_cancel_right whole]
    exact fun c member => accepted c (List.mem_takeWhile_imp member)
  misses _ _ _ misses := absurd misses Misses.not_run

theorem bind {rule : Rule α} [Built rule] {next : α → Rule β} [∀ value, Built (next value)]
    (first : Over accepts rule) (second : ∀ value, Over accepts (next value)) :
    Over accepts (rule >>= next) where
  reads front rest value found := by
    rw [result_bind, Option.bind_eq_some_iff] at found
    obtain ⟨⟨inner, left⟩, begun, more⟩ := found
    obtain ⟨start, middle, rfl, rfl⟩ :=
      exists_eq_append_of_suffix (Forward.suffix begun) (Forward.suffix more)
    rw [List.append_assoc] at begun
    exact List.forall_mem_append.mpr ⟨first.reads begun, (second inner).reads more⟩
  misses before after item misses := by
    obtain here | ⟨value, front, middle, rfl, begun, later⟩ := misses.bind
    · exact first.misses here
    · rw [List.append_assoc] at begun
      obtain ⟨made, more⟩ := (second value).misses later
      exact ⟨List.forall_mem_append.mpr ⟨first.reads begun, made⟩, more⟩

theorem cons {rule : Rule α} {others : List (Rule α)} [Built rule] (first : Over accepts rule)
    (second : Over accepts (firstOf others)) : Over accepts (firstOf (rule :: others)) where
  reads front rest value found := by
    rw [result_firstOf_cons, Option.or_eq_some_iff] at found
    exact found.elim (first.reads ·) fun later => second.reads later.2
  misses before after item misses := by
    obtain here | ⟨-, later⟩ := misses.cons
    · exact first.misses here
    · exact second.misses later

theorem make (use : String → α) {rule : Rule (List Char)} [Built rule] (made : Over accepts rule) :
    Over accepts (Word.make use rule) :=
  bind made fun _ => pure _

/-- A choice is made of accepted characters when each rule of a family is. -/
theorem firstOf_map {ι : Type} {family : ι → Rule α} [∀ index, Built (family index)]
    {indices : List ι} (each : ∀ index ∈ indices, Over accepts (family index)) :
    Over accepts (firstOf (indices.map family)) := by
  induction indices with
  | nil => exact nil
  | cons index indices ih =>
    rw [List.forall_mem_cons] at each
    exact cons each.1 (ih each.2)

end Over

/-- A rule for arguments that are made of accepted characters, and that reads something wherever
one of them comes. -/
structure CatchesAll (accepts : Char → Bool) (rule : Rule α) : Prop where
  accepted : Over accepts rule
  isSome ⦃c : Char⦄ (rest : List Char) : accepts c = true → (rule (c :: rest)).result.isSome = true

/-- Accepted characters with spaces between them are read to the end. -/
theorem CatchesAll.exists_result_spacedMany {rule : Rule α} [Built rule] [Consuming rule]
    (catchesAll : CatchesAll accepts rule) {text : List Char}
    (made : ∀ c ∈ text, accepts c = true ∨ isSpace c = true) :
    ∃ values rest, (spacedMany rule text).result = some (values, rest) ∧ blank rest = true := by
  induction text using repeat_induction fun text => rule (strip text) with
  | stop text missed =>
    refine ⟨[], text, by rw [spacedMany_of_none missed], ?_⟩
    rw [← strip_eq_nil_iff]
    cases stripped : strip text with
    | nil => rfl
    | cons c rest =>
      have member : c ∈ text := (strip_suffix text).subset (stripped ▸ .head _)
      have accepted : accepts c = true := (made c member).resolve_right fun space => by
        rw [isSpace_of_strip stripped] at space
        cases space
      have found := catchesAll.isSome rest accepted
      rw [← stripped, missed] at found
      cases found
  | idle text value rest found same =>
    exact absurd ((Consuming.shorter found).trans_le (strip_suffix text).length_le) same
  | step text value rest found shorter ih =>
    have part := (Forward.suffix found).trans (strip_suffix text)
    obtain ⟨values, last, others, ended⟩ := ih fun c member => made c (part.subset member)
    exact ⟨value :: values, last, by rw [spacedMany_of_some found shorter, others]; rfl, ended⟩

/-- Whatever is looked for among such arguments completes the text before it. -/
theorem CatchesAll.completes {rule : Rule α} [Built rule] [Consuming rule]
    (catchesAll : CatchesAll accepts rule) {before after : List Char} {item : Expected}
    (awaits : Awaits rule before after item) : Completes (spacedMany rule) before item := by
  have made : (∀ c ∈ before, accepts c = true ∨ isSpace c = true) ∧
      ∃ more, (∀ c ∈ more, accepts c = true) ∧ item.Opens more := by
    refine awaits_induction (motive := fun before _ item =>
      (∀ c ∈ before, accepts c = true ∨ isSpace c = true) ∧
        ∃ more, (∀ c ∈ more, accepts c = true) ∧ item.Opens more) ?_ ?_ ?_ ?_ awaits
    · exact fun _ => ⟨List.forall_mem_nil _, [], List.forall_mem_nil _, rfl⟩
    · intro before after item misses
      obtain ⟨made, more⟩ := catchesAll.accepted.misses misses
      exact ⟨fun c member => .inl (made c member), more⟩
    · rintro gap before after item blanks ⟨made, more⟩
      have spaces := List.all_eq_true.mp blanks
      exact ⟨List.forall_mem_append.mpr ⟨fun c member => .inr (spaces c member), made⟩, more⟩
    · rintro front value before after item found - ⟨made, more⟩
      have read := catchesAll.accepted.reads found
      exact ⟨List.forall_mem_append.mpr ⟨fun c member => .inl (read c member), made⟩, more⟩
  obtain ⟨madeBefore, more, madeMore, opens⟩ := made
  obtain ⟨values, rest, found, ended⟩ := catchesAll.exists_result_spacedMany
    (List.forall_mem_append.mpr ⟨madeBefore, fun c member => .inl (madeMore c member)⟩)
  exact ⟨more, values, rest, opens, found, ended⟩

/-! ### The kinds of commands -/

/-- What an alternative reads is read by the choice, if not by an alternative before it. -/
theorem isSome_firstOf_of_mem {rules : List (Rule α)} {rule : Rule α} (member : rule ∈ rules)
    {text : List Char} (some : (rule text).result.isSome = true) :
    (firstOf rules text).result.isSome = true := by
  induction rules with
  | nil => cases member
  | cons first rules ih =>
    rw [result_firstOf_cons, Option.isSome_or, Bool.or_eq_true]
    obtain rfl | later := List.mem_cons.mp member
    · exact .inl some
    · exact .inr (ih later)

/-- A value is made of a word wherever the word is read. -/
theorem isSome_make (use : String → α) {rule : Rule (List Char)} {text : List Char}
    (some : (rule text).result.isSome = true) : (make use rule text).result.isSome = true := by
  obtain ⟨pair, read⟩ := Option.isSome_iff_exists.mp some
  rw [make, result_bind_of_some read]
  rfl

/-- A resource path may have an ASCII letter in either case. -/
theorem resourcePath_toLower (c : Char) :
    CharClass.resourcePath.accepts c.toLower = CharClass.resourcePath.accepts c :=
  Text.apply_toLower (by decide) c

/-- A resource path may have digits. -/
theorem resourcePath_of_digit (c : Char) (digit : CharClass.digit.accepts c = true) :
    CharClass.resourcePath.accepts c = true := by
  simp only [CharClass.accepts] at digit
  simp [CharClass.accepts, Text.isAlphanumeric, digit]

/-- The name of an object is a resource path. -/
theorem resourcePath_of_objectName (c : Char) (name : CharClass.objectName.accepts c = true) :
    CharClass.resourcePath.accepts c = true := by
  simp only [CharClass.accepts, Bool.or_eq_true, decide_eq_true_eq] at name ⊢
  obtain (alphanumeric | rfl) | rfl := name
  · exact .inl alphanumeric
  · exact .inr (by decide)
  · exact .inr (by decide)

namespace Over

/-- A parameter is made of accepted characters when its key and its value are. -/
theorem parameter {key value : Rule (List Char)} (meant : String → ParameterValue) [Built key]
    [Built value] (equals : accepts '=' = true) (first : Over accepts key)
    (second : Over accepts value) : Over accepts (Argument.parameter key value meant) :=
  bind first fun _ => bind (literal (List.forall_mem_singleton.mpr equals)) fun _ =>
    bind second fun _ => pure _

/-- Digits are a resource path. -/
theorem integer : Over CharClass.resourcePath.accepts integer :=
  chars (c := '0') resourcePath_of_digit (by decide)

/-- A number is a resource path. -/
theorem number : Over CharClass.resourcePath.accepts number :=
  have pointed : Over CharClass.resourcePath.accepts pointed :=
    bind (@run _ .digit resourcePath_of_digit) fun _ =>
      bind (literal (by decide)) fun _ => bind integer fun _ => pure _
  cons pointed (cons integer nil)

theorem resource : Over CharClass.resourcePath.accepts Argument.resource :=
  make _ (chars (c := 'a') (fun _ => id) (by decide))

theorem name : Over CharClass.resourcePath.accepts Argument.name :=
  bind (literal (by decide)) fun _ => bind (literal (by decide)) fun _ =>
    make _ (chars (c := 'a') resourcePath_of_objectName (by decide))

theorem mask : Over CharClass.resourcePath.accepts Argument.mask :=
  parameter _ (by decide) (keyword resourcePath_toLower (by decide))
    (chars (c := 'a') (fun _ => id) (by decide))

theorem tag : Over CharClass.resourcePath.accepts Argument.tag :=
  parameter _ (by decide) (literal (by decide)) integer

/-- The words of a flag are made of accepted characters. -/
theorem status {flag : Flag} (on : ∀ c ∈ flag.word.toList, accepts c = true)
    (off : ∀ word ∈ flag.offWord?, ∀ c ∈ word.toList, accepts c = true) :
    Over accepts (Argument.status flag) := by
  unfold Argument.status
  cases other : flag.offWord? with
  | none => exact make _ (literal on)
  | some word => exact make _ (cons (literal on) (cons (literal (off word other)) nil))

end Over

/-- Arguments that are paths or made of them catch all paths. -/
theorem CatchesAll.of_resource {rules : List (Rule Argument)}
    (made : Over CharClass.resourcePath.accepts (firstOf rules))
    (member : Argument.resource ∈ rules) :
    CatchesAll CharClass.resourcePath.accepts (firstOf rules) where
  accepted := made
  isSome c rest accepted := isSome_firstOf_of_mem member
    (isSome_make _ ((isSome_chars .resourcePath (c :: rest)).trans accepted))

/-- A command whose arguments catch all characters of a class completes texts. -/
theorem CatchesAll.resumes {kind : CommandKind} {rule : Rule Argument} [Built rule]
    [Consuming rule] (word : kind.word.toList ≠ []) (catchesAll : CatchesAll accepts rule) :
    Resumes (withArguments kind rule) :=
  .keyword word fun _ => .map (.spacedMany fun _ _ _ => catchesAll.completes)

/-- Commands whose arguments are paths or made of them complete texts. -/
theorem resumes_of_path {kind : CommandKind} (path : kind ∈ [CommandKind.texture, .sound, .corona,
    .noise, .picture, .media, .url]) : Resumes (phraseOf kind) := by
  have keyword (word : String)
      (accepted : ∀ c ∈ word.toList, CharClass.resourcePath.accepts c = true) :
      Over CharClass.resourcePath.accepts (Rule.keyword word) := .keyword resourcePath_toLower accepted
  have alone : Over CharClass.resourcePath.accepts (firstOf [Argument.resource]) := .cons .resource .nil
  cases kind
  case texture =>
    exact (CatchesAll.of_resource (.cons .mask (.cons .tag (.cons .name alone))) (by simp)).resumes
      (by decide)
  case sound =>
    exact (CatchesAll.of_resource (.cons .name (.cons (.status (by decide) (by decide)) alone))
      (by simp)).resumes (by decide)
  case corona =>
    have size : Over CharClass.resourcePath.accepts (Argument.numberParameter (literal "size")) :=
      .parameter _ (by decide) (.literal (by decide)) .number
    exact (CatchesAll.of_resource (.cons .mask (.cons size (.cons .name alone)))
      (by simp)).resumes (by decide)
  case noise =>
    exact (CatchesAll.of_resource (.cons (.status (by decide) (by decide)) alone)
      (by simp)).resumes (by decide)
  case picture =>
    have update : Over CharClass.resourcePath.accepts
        (Argument.integerParameter (literal "update")) :=
      .parameter _ (by decide) (.literal (by decide)) .integer
    exact (CatchesAll.of_resource (.cons update (.cons .name alone)) (by simp)).resumes (by decide)
  case media =>
    have radius := Over.parameter .float (by decide) (keyword "radius" (by decide)) .number
    exact (CatchesAll.of_resource (.cons .name (.cons radius alone)) (by simp)).resumes (by decide)
  case url =>
    have target := Over.parameter .word (by decide) (keyword "target" (by decide))
      (keyword "aw_3d" (by decide))
    exact (CatchesAll.of_resource (.cons target alone) (by simp)).resumes (by decide)
  all_goals simp at path

/-- The name of an object is made of its characters. -/
theorem Over.target : Over CharClass.objectName.accepts Argument.target :=
  make _ (chars (c := 'a') (fun _ => id) (by decide))

/-- The rule for names of objects catches them all. -/
theorem catchesAll_target : CatchesAll CharClass.objectName.accepts Argument.target where
  accepted := .target
  isSome c rest accepted := isSome_make _ ((isSome_chars .objectName (c :: rest)).trans accepted)

/-- An answer is the name of an object as well, so that the rule for both catches all names. -/
theorem catchesAll_switch : CatchesAll CharClass.objectName.accepts Argument.switch where
  accepted := by
    have words : ∀ word ∈ ["on", "true", "yes", "off", "false", "no"],
        ∀ c ∈ word.toList, CharClass.objectName.accepts c = true := by decide
    have answer : Over CharClass.objectName.accepts answer :=
      .firstOf_map fun word member => .literal (words word member)
    exact .cons (.make _ answer) (.cons .target .nil)
  isSome _ rest accepted :=
    isSome_firstOf_of_mem (.tail _ (.head _)) (catchesAll_target.isSome rest accepted)

/-- Commands whose arguments are names of objects complete texts. -/
theorem resumes_of_target {kind : CommandKind}
    (target : kind ∈ [CommandKind.solid, .name, .visible]) : Resumes (phraseOf kind) := by
  cases kind
  case solid => exact catchesAll_switch.resumes (by decide)
  case name => exact catchesAll_target.resumes (by decide)
  case visible => exact catchesAll_switch.resumes (by decide)
  all_goals simp at target

end ActionString.Grammar
