import SqlRenewal.Association
import SqlRenewal.Files.Path
import SqlRenewal.Text.Integer
import SqlRenewal.Text.Quoted
import SqlRenewal.Text.UpperCase

/-!
# Settings

Settings come from the environment and from a settings file; the environment
wins. An empty value is the same as none, but in the environment it still hides
that of the file.
-/
namespace SqlRenewal

/-- Where definitions are read from. -/
inductive Source where
  | database (path : Path)
  | folder (path : Path)
deriving DecidableEq, Repr

/-- Why settings are refused. -/
inductive SettingsFault where
  | notInteger (raw : Text)
  | notBoolean (raw : Text)
  | batchSize (size : Int)
  | twoSources
deriving DecidableEq, Repr

/-- The beginning of the names of all settings. -/
def settingsMark : String := "PROCMOD_"

/-- The wording of refused settings. -/
def SettingsFault.message : SettingsFault → String
  | .notInteger raw =>
    settingsMark ++ "BATCH_SIZE must be an integer, got " ++ String.ofList (Quoted.encode raw)
  | .notBoolean raw =>
    settingsMark ++ "BACKUP_ENABLED must be a boolean, got " ++ String.ofList (Quoted.encode raw)
  | .batchSize size => s!"batch_size must be >= 1, got {size}"
  | .twoSources => "definitions_db and definitions_dir are mutually exclusive"

/-- After how many routines progress is reported: at least one. -/
structure BatchSize where
  count : Nat
  count_pos : 1 ≤ count
deriving DecidableEq, Repr

/-- The batch size of settings that give none. -/
def defaultBatchSize : BatchSize :=
  ⟨10, by decide⟩

/-- How a command works. -/
structure Settings where
  ledger : Path := Path.ofString "modernization_journal.duckdb"
  source : Option Source := none
  batchSize : BatchSize := defaultBatchSize
  backup : Bool := true
  logLevel : Text := "INFO".toList
deriving DecidableEq, Repr

/-- A batch size has to be at least one. -/
def checkBatchSize (size : Int) : Except SettingsFault BatchSize :=
  if positive : 1 ≤ size then .ok ⟨size.toNat, by omega⟩
  else .error (.batchSize size)

/-- The truth values that a setting may spell. -/
def readBool? (raw : Text) : Option Bool :=
  let word := String.ofList ((Text.trim raw).map Char.toLower)
  if ["1", "true", "yes", "on"].contains word then some true
  else if ["0", "false", "no", "off"].contains word then some false
  else none

/-- Definitions come from one place at most. -/
def chooseSource : (database folder : Option Path) → Except SettingsFault (Option Source)
  | some _, some _ => .error .twoSources
  | some path, none => .ok (some (.database path))
  | none, some path => .ok (some (.folder path))
  | none, none => .ok none

namespace Settings

/-- The value of a setting in the environment and a settings file. -/
def value? (environment file : List (Text × Text)) (name : String) : Option Text :=
  let key := (settingsMark ++ name).toList
  ((valueOf? key environment).or (valueOf? key file)).filter (· ≠ [])

/-- The batch size that a setting spells. -/
def readBatchSize : Option Text → Except SettingsFault Int
  | none => .ok defaultBatchSize.count
  | some raw =>
    match readNumber? raw with
    | some size => .ok size
    | none => .error (.notInteger raw)

/-- Whether backups are made, as a setting spells it. -/
def readBackup : Option Text → Except SettingsFault Bool
  | none => .ok true
  | some raw =>
    match readBool? raw with
    | some backup => .ok backup
    | none => .error (.notBoolean raw)

/-- The settings that an environment and a settings file make. -/
def load (environment file : List (Text × Text)) : Except SettingsFault Settings := do
  let value := value? environment file
  let ledger := ((value "JOURNAL_DB").map Path.ofText).getD ({} : Settings).ledger
  let rawSize ← readBatchSize (value "BATCH_SIZE")
  let backup ← readBackup (value "BACKUP_ENABLED")
  let logLevel := ((value "LOG_LEVEL").map Text.upper).getD ({} : Settings).logLevel
  let batchSize ← checkBatchSize rawSize
  let source ← chooseSource ((value "DEFINITIONS_DB").map Path.ofText)
    ((value "DEFINITIONS_DIR").map Path.ofText)
  return { ledger, source, batchSize, backup, logLevel }

end Settings

end SqlRenewal
