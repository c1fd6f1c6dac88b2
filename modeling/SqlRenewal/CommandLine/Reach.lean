import SqlRenewal.CommandLine.Invocation

/-!
# What a command may touch

Before a command runs, the files that it may read or write are brought together.
The settings file comes first, because it can name the others. Afterwards the
entries that changed are the ones to be written, and those that are gone are the
ones to be removed.
-/
namespace SqlRenewal

/-- The settings that are read from the environment. -/
def settingNames : List String :=
  ["JOURNAL_DB", "DEFINITIONS_DB", "DEFINITIONS_DIR", "BATCH_SIZE", "BACKUP_ENABLED",
    "LOG_LEVEL"].map (settingsMark ++ ·)

/-- The settings file of a command line. -/
def settingsPaths (arguments : List Text) : List Path :=
  match readCommandLine arguments with
  | .ok (general, _) => (general.settingsFile.filter (· ≠ [])).toList.map Path.ofText
  | .error _ => []

/-- The files that a command names itself. -/
def Command.paths : Command → List Path
  | .export out => out.toList.map Path.ofText
  | .cleanup _ target => (target.filter (· ≠ [])).toList.map Path.ofText
  | .renew file _ => file.toList.map Path.ofText
  | _ => []

/-- The places of a database: its path as it is spelled, the file that keeps it, and
the file of its last changes. -/
def Path.databasePlaces (path : Path) : List Path :=
  match path.keeper with
  | .file file => [path, file, file.changes]
  | _ => [path]

/-- The places of definitions. -/
def Source.places : Source → List Path
  | .database path => path.databasePlaces
  | .folder path => [path]

/-- All places that a command line leads to, when the settings file is known. -/
def reachedPaths (arguments : List Text) (environment : List (Text × Text)) (files : Tree) :
    List Path :=
  match readCommandLine arguments with
  | .error _ => []
  | .ok (general, command) =>
    match resolveSettings general command environment files with
    | .error _ => []
    | .ok settings =>
      settings.ledger.databasePlaces ++ settings.source.toList.flatMap Source.places ++
        command.paths

/-- A place with the directories above it, outermost first. -/
def withDirectories (path : Path) : List Path :=
  Tree.lineage path

/-- The entries that are not in a tree as they are in another. -/
def Tree.changesFrom (before after : Tree) : List (Path × Entry) :=
  after.entries.filter fun (path, entry) => before.get? path ≠ some entry

/-- The places at which something stands in a tree and nothing in another. -/
def Tree.gonePlaces (before after : Tree) : List Path :=
  (before.entries.map (·.1)).filter fun path =>
    (before.get? path).isSome && (after.get? path).isNone

/-- The entry that the bytes of a file make. -/
def Entry.ofBytes (bytes : List UInt8) : Entry :=
  match Database.ofBytes? bytes with
  | some known => .database known
  | none => .file bytes

/-- What a command line that asks for help is told. -/
def helpText : String :=
  "usage: modernize [-h] [--journal-db PATH] [--definitions-db PATH | --definitions-dir PATH]\n" ++
  "                 [--env-file PATH] [-v] COMMAND ...\n\n" ++
  "commands: preview, apply, batch, rollback, history, status, export, cleanup, rewrite\n"

/-- A log line with its time. -/
def LogLine.stamped (stamp : Text) (line : LogLine) : String :=
  String.ofList stamp ++ " " ++ line.shown

/-- What is written to the error stream, line by line. -/
def Result.complaints (stamp : Text) (result : Result) : List String :=
  result.log.map (LogLine.stamped stamp) ++
    match result.ended with
    | .exit _ => []
    | .help => []
    | .refused fault => ["modernize: error: " ++ fault.message]
    | .stopped failure => [failure.kind ++ ": " ++ failure.message]

/-- What is written to the output stream. -/
def Result.output (result : Result) : String :=
  match result.ended with
  | .help => helpText
  | _ => String.ofList result.printed

/-- The exit code of a command. -/
def Result.code (result : Result) : UInt32 :=
  match result.ended with
  | .exit code => code.toUInt32
  | .refused _ => 2
  | .help => 0
  | .stopped _ => 1

end SqlRenewal
