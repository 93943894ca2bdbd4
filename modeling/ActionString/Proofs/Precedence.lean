import ActionString.Batch.Run

/-!
# What a run depends on

A run looks for its settings at one place after the other and stops at the first where something is
found, be it only that a file that was named is missing. Nothing behind that place counts. The
settings are read before the source, the source before it is reported on, and a run that fails at
one of these steps writes nothing.
-/

namespace ActionString

/-- The places where settings are looked for. -/
inductive SettingsPlace where
  | named
  | working
  | user
  deriving DecidableEq, Repr

/-- Where a place stands in the order of the search. -/
def SettingsPlace.rank : SettingsPlace → Nat
  | named => 0
  | working => 1
  | user => 2

namespace Files

/-- What is found at a place: a file, or that the file that was named is missing. -/
def found (files : Files) : SettingsPlace → Option (Except Failure ByteArray)
  | .named => files.namedSettings.map fun (path, file) =>
    match file with
    | some bytes => .ok bytes
    | none => .error (.missingSettings path)
  | .working => files.localSettings.map .ok
  | .user => files.systemSettings.map .ok

/-- A place is looked at when nothing is found at the places before it. -/
def LooksAt (files : Files) (place : SettingsPlace) : Prop :=
  ∀ earlier : SettingsPlace, earlier.rank < place.rank → files.found earlier = none

/-- The named place is looked at in any case. -/
theorem looksAt_named (files : Files) : files.LooksAt .named :=
  fun _ before => absurd before (Nat.not_lt_zero _)

/-- Behind the named place, the working directory is looked at. -/
theorem looksAt_working {files : Files} (named : files.found .named = none) :
    files.LooksAt .working := by
  intro earlier before
  cases earlier with
  | named => exact named
  | working => exact absurd before (Nat.lt_irrefl _)
  | user => exact absurd before (by decide)

/-- The settings of the user are looked at last. -/
theorem looksAt_user {files : Files} (named : files.found .named = none)
    (working : files.found .working = none) : files.LooksAt .user := by
  intro earlier before
  cases earlier with
  | named => exact named
  | working => exact working
  | user => exact absurd before (Nat.lt_irrefl _)

end Files

namespace Run

/-- The settings that follow from what is found. -/
def settingsOf : Option (Except Failure ByteArray) → Except Failure Settings
  | none => .ok {}
  | some (.ok bytes) => settingsIn bytes
  | some (.error failure) => .error failure

/-- The settings of a run are those of the first place where something is found. -/
theorem settings_eq (files : Files) :
    settings files = settingsOf
      ((files.found .named).or ((files.found .working).or (files.found .user))) := by
  obtain ⟨source, named, working, user⟩ := files
  cases named with
  | some pair =>
    obtain ⟨path, file⟩ := pair
    cases file <;> rfl
  | none => cases working <;> cases user <;> rfl

/-- The settings depend on the places that are looked at only. -/
theorem settings_congr {first second : Files}
    (same : ∀ place, first.LooksAt place → first.found place = second.found place) :
    settings first = settings second := by
  have named := same .named first.looksAt_named
  rw [settings_eq, settings_eq, ← named]
  cases first_named : first.found .named with
  | some found => rfl
  | none =>
    have working := same .working (Files.looksAt_working first_named)
    rw [Option.none_or, Option.none_or, ← working]
    cases first_working : first.found .working with
    | some found => rfl
    | none => rw [same .user (Files.looksAt_user first_named first_working)]

/-- A failure with the settings is the failure of the run. -/
theorem output_of_settings_error {files : Files} {failure : Failure}
    (failed : settings files = .error failure) (options : Options) :
    output files options = .error failure := by
  rw [output, failed]
  rfl

/-- A failure with the source is the failure of the run when the settings can be read. -/
theorem output_of_source_error {files : Files} {given : Settings} {failure : Failure}
    (readable : settings files = .ok given) (failed : textOf files.source = .error failure)
    (options : Options) : output files options = .error failure := by
  rw [output, readable]
  change (textOf files.source >>= _) = _
  rw [failed]
  rfl

/-- What a run comes to depends on the settings and the source only. -/
theorem output_congr {first second : Files} (source : first.source = second.source)
    (same : settings first = settings second) (options : Options) :
    output first options = output second options := by
  rw [output, output, source, same]

/-- Bytes that are not text are no source. -/
theorem textOf_of_not_isValidUTF8 {bytes : ByteArray} (broken : ¬bytes.IsValidUTF8) :
    textOf (some bytes) = .error (.file .notText) := by
  rw [textOf, String.fromUTF8?, dif_neg broken]

end Run

/-- A run that fails writes nothing. -/
theorem run_of_error {files : Files} {options : Options} {failure : Failure}
    (failed : Run.output files options = .error failure) :
    run files options = ⟨some failure, none⟩ := by
  rw [run, failed]

/-- The result of a run depends on its source and on the places where it looks for settings, which
end with the first where something is found. A named file that is missing is its failure, and so is
any failure with the settings, whatever the source; where the settings can be read, a source that is
missing or no text is its failure. A run writes something exactly when it does not fail. -/
theorem run_precedence (files : Files) (options : Options) :
    (∀ other : Files, files.source = other.source →
        (∀ place, files.LooksAt place → files.found place = other.found place) →
        run files options = run other options) ∧
      (∀ path, files.namedSettings = some (path, none) →
        run files options = ⟨some (.missingSettings path), none⟩) ∧
      (∀ failure, Run.settings files = .error failure →
        ∀ source, run { files with source } options = ⟨some failure, none⟩) ∧
      (∀ given, Run.settings files = .ok given →
        (files.source = none → run files options = ⟨some (.file .missing), none⟩) ∧
        ∀ bytes, files.source = some bytes → ¬bytes.IsValidUTF8 →
          run files options = ⟨some (.file .notText), none⟩) ∧
      (run files options).written.isSome = (run files options).failure.isNone := by
  refine ⟨fun other source same => ?_, fun path named => ?_, fun failure failed source => ?_,
    fun given readable => ⟨fun missing => ?_, fun bytes source broken => ?_⟩, ?_⟩
  · rw [run, run, Run.output_congr source (Run.settings_congr same)]
  · have failed : Run.settings files = .error (.missingSettings path) := by
      rw [Run.settings, named]
    exact run_of_error (Run.output_of_settings_error failed options)
  · have same : Run.settings { files with source } = .error failure := failed
    exact run_of_error (Run.output_of_settings_error same options)
  · have failed : Run.textOf files.source = .error (.file .missing) := by
      rw [missing]
      rfl
    exact run_of_error (Run.output_of_source_error readable failed options)
  · have failed : Run.textOf files.source = .error (.file .notText) := by
      rw [source, Run.textOf_of_not_isValidUTF8 broken]
    exact run_of_error (Run.output_of_source_error readable failed options)
  · unfold run
    cases Run.output files options <;> rfl

/-- Settings that are no text fail a run with a good source, whatever the settings of the user are;
a named file that is missing fails it before them; and without settings the broken source does. -/
theorem run_precedence_broken :
    run ⟨some "adone".toUTF8, none, some ⟨#[0xff]⟩, none⟩ {} =
        run ⟨some "adone".toUTF8, none, some ⟨#[0xff]⟩, some ⟨#[0x5b]⟩⟩ {} ∧
      run ⟨none, none, some ⟨#[0xff]⟩, none⟩ {} = ⟨some (.file .notText), none⟩ ∧
      run ⟨none, some ("a.toml", none), some ⟨#[0xff]⟩, none⟩ {} =
        ⟨some (.missingSettings "a.toml"), none⟩ ∧
      run ⟨none, none, none, none⟩ { strict := true } = ⟨some (.file .missing), none⟩ ∧
      run ⟨some ⟨#[0xff]⟩, none, none, none⟩ { debug := true } =
        ⟨some (.file .notText), none⟩ := by
  have broken : ¬(⟨#[0xff]⟩ : ByteArray).IsValidUTF8 := by decide
  have failed : Run.settings ⟨some "adone".toUTF8, none, some ⟨#[0xff]⟩, none⟩ =
      .error (.file .notText) := by
    change Run.settingsIn _ = _
    rw [Run.settingsIn, Run.textOf_of_not_isValidUTF8 broken]
    rfl
  refine ⟨(run_precedence _ _).1 _ rfl fun place looks => ?_,
    (run_precedence _ _).2.2.1 _ failed none, (run_precedence _ _).2.1 _ rfl,
    ((run_precedence _ _).2.2.2.1 {} rfl).1 rfl,
    ((run_precedence _ _).2.2.2.1 {} rfl).2 _ rfl broken⟩
  cases place with
  | named => rfl
  | working => rfl
  | user => exact absurd (looks .working (by decide)) (Option.some_ne_none _)

end ActionString
