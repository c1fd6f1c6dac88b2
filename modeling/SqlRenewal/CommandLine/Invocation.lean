import SqlRenewal.CommandLine.Command
import SqlRenewal.Settings.Basic
import SqlRenewal.Settings.Dotenv
import SqlRenewal.Store.Opening
import SqlRenewal.Work.Cleanup

/-!
# Running a command

A command line, the environment and the files decide everything: what is printed,
what is logged, how the command ends, and the files afterwards. Switches win over
the environment, and the environment over the settings file.

Definitions and ledger are opened before the work and kept after it, whether the
work succeeded or not.
-/
namespace SqlRenewal

/-- Why settings cannot be made. -/
inductive SettingsStop where
  | settings (fault : SettingsFault)
  | file (fault : ReadFault)
deriving DecidableEq, Repr

/-- The assignments of the settings file that a command line names, if it exists. -/
def readSettingsFile (files : Tree) (path : Option Text) :
    Except ReadFault (List (Text × Text)) :=
  match path.filter (· ≠ []) with
  | none => .ok []
  | some text =>
    let path := Path.ofText text
    match files.holds path with
    | .ok true => (files.readText path).map Dotenv.read
    | .ok false => .ok []
    | .error fault => .error (.file fault)

/-- The batch size that a command line gives, where zero is none. -/
def Command.batchSize? : Command → Option Int
  | .batch _ _ _ size => size.filter (· ≠ 0)
  | _ => none

/-- The command line forbids backups. -/
def Command.forbidsBackup : Command → Bool
  | .apply _ _ noBackup => noBackup
  | .batch _ _ noBackup _ => noBackup
  | _ => false

/-- The place of definitions that switches give. -/
def GeneralOptions.source? (general : GeneralOptions) : Option Source :=
  ((general.database.filter (· ≠ [])).map fun text => Source.database (Path.ofText text)).or
    ((general.folder.filter (· ≠ [])).map fun text => Source.folder (Path.ofText text))

/-- Settings with what the command line says in place of them. -/
def Settings.override (general : GeneralOptions) (command : Command) (base : Settings) :
    Except SettingsFault Settings := do
  let batchSize ← checkBatchSize (command.batchSize?.getD base.batchSize.count)
  return {
    ledger := ((general.ledger.filter (· ≠ [])).map Path.ofText).getD base.ledger
    source := general.source?.or base.source
    batchSize
    backup := base.backup && !command.forbidsBackup
    logLevel := if general.verbose then "DEBUG".toList else base.logLevel }

/-- The settings of a command. -/
def resolveSettings (general : GeneralOptions) (command : Command)
    (environment : List (Text × Text)) (files : Tree) : Except SettingsStop Settings := do
  let file ← (readSettingsFile files general.settingsFile).mapError SettingsStop.file
  let base ← (Settings.load environment file).mapError SettingsStop.settings
  (base.override general command).mapError SettingsStop.settings

/-- The lowest rank of the lines that a log of that level shows. A name that means
nothing counts as `INFO`, but one that means something else about the log is
refused. -/
def shownRank (level : Text) : Except LevelFault Nat :=
  match String.ofList level with
  | "DEBUG" => .ok 10
  | "WARNING" => .ok 30
  | "WARN" => .ok 30
  | "ERROR" => .ok 40
  | "CRITICAL" => .ok 50
  | "FATAL" => .ok 50
  | "NOTSET" => .ok 0
  | "BASIC_FORMAT" => .error .layout
  | "_STYLES" => .error .styles
  | _ => .ok 20

/-- How a command ended. -/
inductive Ended where
  | exit (code : Nat)
  /-- The command line or the settings were refused. -/
  | refused (fault : UsageFault)
  /-- Help was asked for. -/
  | help
  /-- A failure that the command has no answer for. -/
  | stopped (failure : Failure)
deriving DecidableEq, Repr

/-- All that a command leaves behind. -/
structure Result where
  ended : Ended
  files : Tree
  printed : Text := []
  log : List LogLine := []
deriving DecidableEq, Repr

/-- What a command prints, and its exit code. -/
structure Reply where
  printed : Text
  code : Nat := 0
deriving DecidableEq, Repr

/-- A reply that prints a value. -/
def Reply.ofJson (value : Json) (code : Nat) : Action Reply := do
  return ⟨← orFail (value.document.mapError Failure.unwritable), code⟩

/-- The routine of that schema and name. -/
def nameRoutine (schema name : Text) : Action Identity :=
  orFail ((Identity.make schema name).mapError Failure.badName)

/-- Prints the summary of a run over many routines. -/
def replySummary (summary : Summary) : Action Reply := do
  let reply ← Reply.ofJson summary.toJson (if summary.failed = 0 then 0 else 1)
  if summary.preview && summary.mode != .preview then
    say .info .commands "This was a PREVIEW run. To apply changes, run with --commit"
  return reply

/-- Takes a change back. Without a backup, or when the text cannot be written, the
log says so. -/
def replyRollback (identity : Identity) (choice : Choice) : Action Reply :=
  tryCatch (do Reply.ofJson (← rollbackRun identity choice).toJson 0) fun failure => do
    match failure with
    | .noBackup _ _ =>
      say .error .commands failure.shown
      return ⟨[], 1⟩
    | .commit _ _ =>
      say .error .commands ("Error rolling back procedure: " ++ failure.shown)
      return ⟨[], 1⟩
    | other => throw other

/-- The manner of changing routines that settings and a command give. -/
def changeManner (settings : Settings) (commit : Bool) : Manner :=
  { backup := settings.backup, preview := !commit }

/-- The work of a command at its desk. -/
def Command.work (settings : Settings) : Command → Action Reply
  | .preview scope => do replySummary (← previewRun builtinRules scope)
  | .apply scope commit _ => do replySummary (← applyRun (changeManner settings commit) scope)
  | .batch scope commit _ _ => do
    replySummary (← batchRun (changeManner settings commit) settings.batchSize.count scope)
  | .rollback schema name choice => do replyRollback (← nameRoutine schema name) choice
  | .history schema name => do
    let identity ← nameRoutine schema name
    let records := (← get).ledger.history identity
    Reply.ofJson (.fieldsOf [("unit", .text identity.qualified),
      ("records", .list (records.map Record.toJson))]) 0
  | .status => do Reply.ofJson (← get).ledger.counts.toJson 0
  | .export none => throw .noPath
  | .export (some out) => do
    let count ← exportRecords (Path.ofText out)
    Reply.ofJson (.fieldsOf [("exported", .nat count), ("path", .text out)]) 0
  | .cleanup confirmed target => do
    Reply.ofJson (← cleanUp confirmed ((target.filter (· ≠ [])).map Path.ofText)).toJson 0
  | .renew none _ => throw .noPath
  | .renew (some file) report => do
    let path := Path.ofText file
    let text ← orFail (((← get).files.readText path).mapError Failure.ofRead)
    let renewed ← renewLogged builtinRules text
    if report then
      Reply.ofJson (.fieldsOf
        ([("file", .text path.spelling)] ++ renewed.fields ++ [("text", .text renewed.text)])) 0
    else return ⟨renewed.text, 0⟩

/-- The command works on the ledger. -/
def Command.needsLedger : Command → Bool
  | .renew _ _ => false
  | _ => true

/-- The command works on definitions. -/
def Command.needsShelf : Command → Bool
  | .preview _ => true
  | .apply _ _ _ => true
  | .batch _ _ _ _ => true
  | .rollback _ _ _ => true
  | _ => false

/-- Opens the definitions. -/
def openShelf (files : Tree) : Option Source → Except Failure Shelf
  | none => .error .noStore
  | some (.database path) => do
    return .table (← files.openDatabase .definitions false path).catalog
  | some (.folder path) => files.openFolder path

/-- Keeps the definitions after the work, where they are in a database. -/
def keepShelf (files : Tree) : Option Source → Shelf → Tree
  | some (.database path), .table catalog => files.keepCatalog path catalog
  | _, _ => files

/-- The end of a command whose work is done, or has failed, with the log from some
rank on. -/
def conclude (rank : Nat) (result : Except Failure Reply) (files : Tree)
    (log : List LogLine) : Result :=
  let shown (lines : List LogLine) :=
    lines.filter fun line => decide (rank ≤ line.level.rank)
  match result with
  | .ok reply => ⟨.exit reply.code, files, reply.printed, shown log⟩
  | .error failure =>
    if failure.isExpected then
      ⟨.exit 1, files, [], shown (log ++ [⟨.error, .commands, failure.shown⟩])⟩
    else ⟨.stopped failure, files, [], shown log⟩

/-- Runs a command that needs no ledger. -/
def runApart (settings : Settings) (rank : Nat) (command : Command) (now : Stamp)
    (files : Tree) : Result :=
  let (result, desk) := (command.work settings).perform { shelf := .nowhere, files, now }
  conclude rank result desk.files desk.log

/-- Runs a command with the ledger, and with the definitions if it needs them. -/
def runWithLedger (settings : Settings) (rank : Nat) (command : Command) (now : Stamp)
    (files : Tree) : Result :=
  match files.openDatabase .ledger true settings.ledger with
  | .error failure => conclude rank (.error failure) (files.beginDatabase settings.ledger) []
  | .ok database =>
    let opened := files.keepDatabase settings.ledger database
    let source := if command.needsShelf then settings.source else none
    match if command.needsShelf then openShelf opened source else .ok .nowhere with
    | .error failure => conclude rank (.error failure) opened []
    | .ok shelf =>
      let (result, desk) := (command.work settings).perform
        { shelf, ledger := database.ledger, files := opened, now }
      let kept := desk.files.keepDatabase settings.ledger { database with ledger := desk.ledger }
      conclude rank result (keepShelf kept source desk.shelf) desk.log

/-- Runs a command line. -/
def runCommandLine (arguments : List Text) (environment : List (Text × Text)) (now : Stamp)
    (files : Tree) : Result :=
  match readCommandLine arguments with
  | .error .help => ⟨.help, files, [], []⟩
  | .error (.usage fault) => ⟨.refused fault, files, [], []⟩
  | .ok (general, command) =>
    match resolveSettings general command environment files with
    | .error (.settings fault) => ⟨.refused (.settings fault.message), files, [], []⟩
    | .error (.file (.decoding fault)) => ⟨.refused (.settings fault.message), files, [], []⟩
    | .error (.file (.file fault)) => ⟨.stopped (.file fault), files, [], []⟩
    | .ok settings =>
      match shownRank settings.logLevel with
      | .error fault => ⟨.stopped (.logLevel fault), files, [], []⟩
      | .ok rank =>
        if command.needsLedger then runWithLedger settings rank command now files
        else runApart settings rank command now files

end SqlRenewal
