import SqlRenewal.CommandLine.Invocation
import SqlRenewal.Proofs.CommandLine.Switches
import SqlRenewal.Proofs.Settings.Assignments

/-!
# Where settings come from

A setting is looked for on the command line, in the environment and in the settings
file, in this order, and has its built-in value if none of them gives it one. An empty
value is none.

There is one exception. The environment and the settings file are put together before
empty values are left aside, so an empty variable hides what the file says. And a batch
size of zero on the command line is taken for none, where one below zero is refused.
-/
namespace SqlRenewal

/-! ### Sources -/

/-- The first of some values that is there and not empty. -/
def firstGiven? (values : List (Option Text)) : Option Text :=
  values.findSome? fun value => value.filter (· ≠ [])

/-- The first given value is the head, unless that is missing or empty. -/
theorem firstGiven?_cons (value : Option Text) (values : List (Option Text)) :
    firstGiven? (value :: values) = (value.filter (· ≠ [])).or (firstGiven? values) := by
  rw [firstGiven?, List.findSome?_cons]
  cases value.filter (· ≠ []) <;> rfl

/-- A single value is the first given one if it is not empty. -/
theorem firstGiven?_single (value : Option Text) :
    firstGiven? [value] = value.filter (· ≠ []) := by
  rw [firstGiven?_cons]
  exact Option.or_none

/-- The first given value of two lists is that of the first list, or else that of the second. -/
theorem firstGiven?_append (values others : List (Option Text)) :
    firstGiven? (values ++ others) = (firstGiven? values).or (firstGiven? others) :=
  List.findSome?_append

/-- The name of a setting, in the environment and in the settings file. -/
def settingKey (name : String) : Text :=
  (settingsMark ++ name).toList

/-- The text of the settings file that a command line names, if it exists. -/
def settingsText (files : Tree) (path : Option Text) : Except ReadFault (Option Text) :=
  match path.filter (· ≠ []) with
  | none => .ok none
  | some text =>
    match files.holds (Path.ofText text) with
    | .ok true => (files.readText (Path.ofText text)).map some
    | .ok false => .ok none
    | .error fault => .error (.file fault)

/-- A settings file is read as its assignments, and a missing file as none. Whether there is one
is asked first, and a fault in looking is a fault of the reading. -/
theorem readSettingsFile_eq (files : Tree) (path : Option Text) :
    readSettingsFile files path =
      (settingsText files path).map fun file => (file.map Dotenv.read).getD [] := by
  rw [readSettingsFile, settingsText]
  cases path.filter (· ≠ []) with
  | none => rfl
  | some text =>
    simp only
    cases files.holds (Path.ofText text) with
    | error fault => rfl
    | ok there =>
      cases there with
      | false => rfl
      | true => cases files.readText (Path.ofText text) <;> rfl

section Sources

variable (environment : List (Text × Text)) (file : Option Text)

/-- The environment and the settings file, in this order: the value of a variable, and
that of the last assignment. -/
def sources (name : String) : List (Option Text) :=
  [valueOf? (settingKey name) environment, file.bind (Dotenv.lastAssigned? (settingKey name))]

/-- What the environment and the settings file supply. A variable that is there hides the
settings file, even if it is empty. -/
def supplied (name : String) : List (Option Text) :=
  match valueOf? (settingKey name) environment with
  | some value => [some value]
  | none => [file.bind (Dotenv.lastAssigned? (settingKey name))]

/-- An empty variable hides a value of the settings file. -/
def Hides (name : String) : Prop :=
  valueOf? (settingKey name) environment = some [] ∧
    (firstGiven? [file.bind (Dotenv.lastAssigned? (settingKey name))]).isSome

/-- A setting is looked up in the environment and then in the file; both are lists of supplied
values, of which the first given one counts. -/
theorem value?_eq (name : String) :
    Settings.value? environment ((file.map Dotenv.read).getD []) name =
      firstGiven? (supplied environment file name) := by
  have assigned : valueOf? (settingKey name) ((file.map Dotenv.read).getD []) =
      file.bind (Dotenv.lastAssigned? (settingKey name)) := by
    cases file with
    | none => rfl
    | some text => exact Dotenv.valueOf?_read _ text
  have unfolded : Settings.value? environment ((file.map Dotenv.read).getD []) name =
      ((valueOf? (settingKey name) environment).or
        (valueOf? (settingKey name) ((file.map Dotenv.read).getD []))).filter (· ≠ []) := rfl
  rw [unfolded, assigned, supplied]
  cases valueOf? (settingKey name) environment with
  | none => rw [firstGiven?_single, Option.none_or]
  | some value => rw [firstGiven?_single, Option.some_or]

/-- Behind any switches, a setting comes from the first source that gives it a value,
exactly unless no switch does and an empty variable hides the settings file. -/
theorem firstGiven?_supplied_iff (switches : List (Option Text)) (name : String) :
    firstGiven? (switches ++ supplied environment file name) =
        firstGiven? (switches ++ sources environment file name) ↔
      (firstGiven? switches).isSome ∨ ¬ Hides environment file name := by
  rw [firstGiven?_append, firstGiven?_append]
  cases firstGiven? switches with
  | some value => simp
  | none =>
    simp only [Option.none_or, Option.isSome_none, Bool.false_eq_true, false_or, supplied, sources,
      Hides]
    cases valueOf? (settingKey name) environment with
    | none => simp [firstGiven?_cons]
    | some value =>
      cases value with
      | cons c value => simp [firstGiven?_cons, Option.filter]
      | nil =>
        rw [firstGiven?_single, firstGiven?_cons]
        cases firstGiven? [file.bind (Dotenv.lastAssigned? (settingKey name))] <;> simp

end Sources

/-! ### Settings -/

/-- The number that stands behind the switch for the batch size. -/
def Command.givenSize? : Command → Option Int
  | .batch _ _ _ size => size
  | _ => none

/-- A command uses the size that it was given, except that zero counts as none. -/
theorem Command.batchSize?_eq (command : Command) :
    command.batchSize? = command.givenSize?.filter (· ≠ 0) := by
  cases command <;> rfl

/-- Where each setting comes from. -/
structure Settings.TakenFrom (settings : Settings) (general : GeneralOptions) (command : Command)
    (environment : List (Text × Text)) (file : Option Text) : Prop where
  ledger : settings.ledger =
    ((firstGiven? ([general.ledger] ++ supplied environment file "JOURNAL_DB")).map Path.ofText).getD
      (Path.ofString "modernization_journal.duckdb")
  logLevel : settings.logLevel =
    if general.verbose then "DEBUG".toList
    else ((firstGiven? (supplied environment file "LOG_LEVEL")).map Text.upper).getD "INFO".toList
  /-- Zero behind the switch is no batch size. -/
  batchSize : ∃ size, Settings.readBatchSize (firstGiven? (supplied environment file "BATCH_SIZE")) =
      .ok size ∧ 1 ≤ size ∧
    (settings.batchSize.count : Int) = (command.givenSize?.filter (· ≠ 0)).getD size
  positive : ∀ size, command.givenSize? = some size → 0 ≤ size
  backup : ∃ wanted, Settings.readBackup
      (firstGiven? (supplied environment file "BACKUP_ENABLED")) = .ok wanted ∧
    settings.backup = (wanted && !command.forbidsBackup)
  /-- A switch decides alone about the place of the definitions. -/
  database : ∀ text, firstGiven? [general.database] = some text →
    settings.source = some (.database (Path.ofText text))
  folder : firstGiven? [general.database] = none → ∀ text, firstGiven? [general.folder] = some text →
    settings.source = some (.folder (Path.ofText text))
  source : firstGiven? [general.database, general.folder] = none →
    chooseSource ((firstGiven? (supplied environment file "DEFINITIONS_DB")).map Path.ofText)
      ((firstGiven? (supplied environment file "DEFINITIONS_DIR")).map Path.ofText) =
        .ok settings.source

/-- A size that is accepted is at least one, and is kept as it is. -/
theorem checkBatchSize_eq_ok {size : Int} {checked : BatchSize}
    (accepted : checkBatchSize size = .ok checked) : (checked.count : Int) = size ∧ 1 ≤ size := by
  rw [checkBatchSize] at accepted
  split at accepted
  · rename_i positive
    cases accepted
    exact ⟨by simp; omega, positive⟩
  · cases accepted

/-- Settings that were loaded and then overridden have each of their fields from its first
source: the flags of the command line come first, and what was loaded is from the environment or
the file. -/
theorem takenFrom_of_load {general : GeneralOptions} {command : Command}
    {environment : List (Text × Text)} {file : Option Text} {base settings : Settings}
    (loaded : Settings.load environment ((file.map Dotenv.read).getD []) = .ok base)
    (overridden : base.override general command = .ok settings) :
    settings.TakenFrom general command environment file := by
  simp only [Settings.load, value?_eq] at loaded
  obtain ⟨rawSize, sized, loaded⟩ := bind_eq_ok.mp loaded
  obtain ⟨wanted, backed, loaded⟩ := bind_eq_ok.mp loaded
  obtain ⟨baseSize, checked, loaded⟩ := bind_eq_ok.mp loaded
  obtain ⟨source, chosen, loaded⟩ := bind_eq_ok.mp loaded
  cases loaded
  obtain ⟨finalSize, accepted, overridden⟩ := bind_eq_ok.mp overridden
  cases overridden
  -- The size is checked twice: as it was loaded, and behind the switch.
  obtain ⟨same, positive⟩ := checkBatchSize_eq_ok checked
  obtain ⟨final, finalPositive⟩ := checkBatchSize_eq_ok accepted
  rw [Command.batchSize?_eq] at final finalPositive
  refine
    { ledger := ?ledger
      logLevel := rfl
      batchSize := ⟨rawSize, sized, positive, by rw [final, same]⟩
      positive := ?positive
      backup := ⟨wanted, backed, rfl⟩
      database := ?database
      folder := ?folder
      source := ?source }
  case ledger =>
    rw [firstGiven?_append, firstGiven?_single]
    cases general.ledger.filter (· ≠ []) <;> rfl
  case positive =>
    intro size given
    by_cases zero : size = 0
    · omega
    · rw [given, Option.filter_some_pos (by simpa using zero), Option.getD_some] at finalPositive
      omega
  case database =>
    intro text given
    rw [firstGiven?_single] at given
    simp only [GeneralOptions.source?, given, Option.map_some, Option.some_or]
  case folder =>
    intro absent text given
    rw [firstGiven?_single] at absent given
    simp only [GeneralOptions.source?, absent, given, Option.map_none, Option.map_some,
      Option.none_or, Option.some_or]
  case source =>
    intro absent
    rw [firstGiven?_cons, Option.or_eq_none_iff, firstGiven?_single] at absent
    simp only [GeneralOptions.source?, absent.1, absent.2, Option.map_none, Option.none_or]
    exact chosen

/-- For every command line, environment and settings file from which settings can be made,
each setting comes from the highest of its sources that gives it a value. Behind the
switches these are the environment and then the last assignment in the settings file,
exactly unless an empty variable hides that. A switch for the batch size below zero is
refused, and one of zero does not count. -/
theorem resolveSettings_precedence {general : GeneralOptions} {command : Command}
    {environment : List (Text × Text)} {files : Tree} {settings : Settings}
    (resolved : resolveSettings general command environment files = .ok settings) :
    ∃ file, settingsText files general.settingsFile = .ok file ∧
      settings.TakenFrom general command environment file ∧
      ∀ switches name,
        (firstGiven? (switches ++ supplied environment file name) =
            firstGiven? (switches ++ sources environment file name) ↔
          (firstGiven? switches).isSome ∨ ¬ Hides environment file name) := by
  obtain ⟨pairs, read, loaded⟩ := bind_eq_ok.mp resolved
  obtain ⟨base, loaded, overridden⟩ := bind_eq_ok.mp loaded
  rw [mapError_eq_ok] at read loaded overridden
  rw [readSettingsFile_eq] at read
  cases found : settingsText files general.settingsFile with
  | error fault =>
    rw [found] at read
    cases read
  | ok file =>
    rw [found] at read
    cases read
    refine ⟨file, rfl, takenFrom_of_load loaded overridden, ?_⟩
    exact firstGiven?_supplied_iff environment file

/-- Switches, a variable and a settings file with two assignments to one key. -/
theorem resolveSettings_precedence_mixed :
    let general : GeneralOptions :=
      { database := some "d.db".toList, settingsFile := some ".env".toList, verbose := true }
    let command : Command := .apply ⟨none, none⟩ true true
    let environment := [("PROCMOD_JOURNAL_DB".toList, "j.db".toList)]
    let text := "PROCMOD_BATCH_SIZE=5\nPROCMOD_DEFINITIONS_DIR=sql\nPROCMOD_BATCH_SIZE='7'\n".toList
    let files : Tree := ⟨[(.ofString ".env", .file (Utf8.encode text))]⟩
    let settings : Settings :=
      { ledger := .ofString "j.db", source := some (.database (.ofString "d.db"))
        batchSize := ⟨7, by decide⟩, backup := false, logLevel := "DEBUG".toList }
    resolveSettings general command environment files = .ok settings ∧
      ∃ file, settingsText files general.settingsFile = .ok file ∧
        settings.TakenFrom general command environment file := by
  intro general command environment text files settings
  have resolved : resolveSettings general command environment files = .ok settings := by
    decide +kernel
  obtain ⟨file, found, taken, _⟩ := resolveSettings_precedence resolved
  exact ⟨resolved, file, found, taken⟩

/-- A batch size of zero on the command line is not refused, and an empty variable hides
the batch size of the settings file: both times the built-in one is used. -/
theorem resolveSettings_skips_values :
    let text := "PROCMOD_BATCH_SIZE=5\n".toList
    let files : Tree := ⟨[(.ofString ".env", .file (Utf8.encode text))]⟩
    let empty := [("PROCMOD_BATCH_SIZE".toList, ([] : Text))]
    (readCommandLine (["batch", "--batch-size", "0"].map String.toList) =
        .ok ({}, .batch ⟨none, none⟩ false false (some 0)) ∧
      resolveSettings {} (.batch ⟨none, none⟩ false false (some 0)) [] {} = .ok {}) ∧
    resolveSettings { settingsFile := some ".env".toList } .status empty files = .ok {} ∧
    settingsText files (some ".env".toList) = .ok (some text) ∧
    firstGiven? (sources empty (some text) "BATCH_SIZE") = some "5".toList ∧
    ({} : Settings).batchSize.count = 10 := by
  intro text files empty
  refine ⟨⟨?_, ?_⟩, ?_, ?_, ?_, rfl⟩
  all_goals decide +kernel

end SqlRenewal
