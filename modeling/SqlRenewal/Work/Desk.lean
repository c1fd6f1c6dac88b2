import SqlRenewal.Store.Folder
import SqlRenewal.Renewal.Report
import SqlRenewal.Ledger.Transaction

/-!
# The desk

All that an operation can see and change: the definitions, the ledger, the files,
the time, and the log. An operation that fails keeps the changes it made before
it failed.

A desk can have outages, under which single operations are refused before they
have any effect.
-/
namespace SqlRenewal

/-- Where definitions are kept. -/
inductive Shelf where
  /-- A table, unless it is missing. -/
  | table (catalog : Option Catalog)
  | folder (root : Path)
  /-- Nowhere: the work is about the ledger alone. -/
  | nowhere
deriving DecidableEq, Repr

/-- Operations that are refused at present. -/
structure Outage where
  /-- Names of routines whose texts cannot be written. -/
  commits : List Text := []
  backups : Bool := false
  updates : Bool := false
deriving DecidableEq, Repr

/-- How much a log line matters. -/
inductive Level where
  | debug
  | info
  | warning
  | error
  | critical
deriving DecidableEq, Repr

/-- The name of a level. -/
def Level.name : Level → String
  | .debug => "DEBUG"
  | .info => "INFO"
  | .warning => "WARNING"
  | .error => "ERROR"
  | .critical => "CRITICAL"

/-- The rank of a level; a log shows the lines from some rank on. -/
def Level.rank : Level → Nat
  | .debug => 10
  | .info => 20
  | .warning => 30
  | .error => 40
  | .critical => 50

/-- Which part of the program writes a log line. -/
inductive Channel where
  | statements
  | ledger
  | changes
  | runs
  | commands
deriving DecidableEq, Repr

/-- The name of a channel. -/
def Channel.name : Channel → String
  | .statements => "procmod.rewrite.engine"
  | .ledger => "procmod.journal"
  | .changes => "procmod.controller"
  | .runs => "procmod.service"
  | .commands => "modernize"

/-- A line of the log. -/
structure LogLine where
  level : Level
  channel : Channel
  message : String
deriving DecidableEq, Repr

/-- The log line as it is shown. -/
def LogLine.shown (line : LogLine) : String :=
  s!"{line.level.name} {line.channel.name}: {line.message}"

/-- Definitions, ledger, files, time and log. -/
structure Desk where
  shelf : Shelf
  ledger : Ledger := {}
  files : Tree := {}
  now : Stamp := []
  outage : Outage := {}
  log : List LogLine := []
deriving DecidableEq, Repr

/-- An operation at a desk. -/
abbrev Action := ExceptT Failure (StateM Desk)

/-- What an operation comes to, and the desk after it. -/
def Action.perform {α : Type} (action : Action α) (desk : Desk) : Except Failure α × Desk :=
  (ExceptT.run action).run desk

/-- Stops an operation that has no result. -/
def orFail {α : Type} : Except Failure α → Action α
  | .ok value => pure value
  | .error failure => throw failure

/-- Writes a line to the log. -/
def say (level : Level) (channel : Channel) (message : String) : Action Unit :=
  modify fun desk => { desk with log := desk.log ++ [⟨level, channel, message⟩] }

/-! ### Definitions -/

/-- The table of definitions, if definitions are kept in one that exists. -/
def getCatalog : Action Catalog := do
  match (← get).shelf with
  | .table (some catalog) => return catalog
  | _ => throw .storage

/-- Replaces the table of definitions. -/
def setCatalog (catalog : Catalog) : Action Unit :=
  modify fun desk => { desk with shelf := .table (some catalog) }

/-- Adds a definition, or replaces the one of the same routine. -/
def putRoutine (identity : Identity) (text : Text) (kind : Option Text) : Action Unit := do
  setCatalog ((← getCatalog).put (Catalog.define identity text kind))

/-- The number of definitions in the table. -/
def countRoutines : Action Nat := do
  return (← getCatalog).length

/-- Drops the table of definitions, which has to be there if definitions are kept in
one. -/
def dropCatalog : Action Unit := do
  match (← get).shelf with
  | .table none => throw .storage
  | .table (some _) => modify fun desk => { desk with shelf := .table none }
  | _ => return

/-- The text of a routine. -/
def readRoutine (identity : Identity) : Action Text := do
  match (← get).shelf with
  | .table none => throw .storage
  | .table (some catalog) =>
    match catalog.routine? identity with
    | some routine => return routine.text
    | none => throw (.noRoutine identity)
  | .folder root => orFail (Folder.read (← get).files root identity)
  | .nowhere => throw (.noStoreFor identity)

/-- Writes the text of a routine that exists. -/
def writeRoutine (identity : Identity) (text : Text) : Action Unit := do
  if (← get).outage.commits.contains identity.name then throw (.commit identity .denied)
  match (← get).shelf with
  | .table none => throw (.commit identity .noTable)
  | .table (some catalog) =>
    match catalog.routine? identity with
    | some _ => setCatalog (catalog.setText identity text)
    | none => throw (.commit identity .noRoutine)
  | .folder root =>
    let files ← orFail (Folder.write (← get).files root identity text)
    modify fun desk => { desk with files }
  | .nowhere => throw (.commit identity .noStore)

/-- All routines, by their names. -/
def allRoutines : Action (List Routine) := do
  match (← get).shelf with
  | .table none => throw .storage
  | .table (some catalog) => return sortRoutines catalog
  | .folder root => orFail (Folder.routines (← get).files root)
  | .nowhere => return []

/-- The routines of a scope, by their names; on demand only those with deprecated
syntax. -/
def listRoutines (scope : Scope) (legacyOnly : Bool) : Action (List Routine) := do
  return (← allRoutines).filter fun routine =>
    scope.admits routine.identity && (!legacyOnly || isLegacy routine.text)

/-! ### Backups -/

/-- Makes writes in one transaction of the ledger. When they are undone, the operation
fails with the given failure. -/
def transaction (failure : Failure) (writes : List Write)
    (breakdown : Option Breakdown) : Action Unit := do
  let desk ← get
  let (ending, ledger) := desk.ledger.transact breakdown writes
  set { desk with ledger }
  match ending with
  | .committed => return
  | .undone => throw failure
  | .unbegun => throw .storage

/-- Backs up a routine before a change. A backup that fails has used a number all the
same, if its record was refused only because of the event. -/
def backUp (identity : Identity) (before : Text) (after : Option Text)
    (breakdown : Option Breakdown := none) : Action Record := do
  let desk ← get
  if desk.outage.backups then throw (.ledger (.fullAtBackup identity))
  let record := desk.ledger.nextRecord desk.now identity before after
  transaction (.ledger (.backup identity))
    [.insertRecord desk.now identity before after,
      .insertEvent desk.now record.id none .backedUp] breakdown
  say .debug .ledger
    ("Backed up " ++ String.ofList identity.qualified ++ s!" as record {record.id}")
  return record

/-- A number that belongs to nothing is refused if the database has no room for it,
or if it has to be `compared` with others and cannot be. -/
def checkNumber (id : Int) (compared : Bool) : Action Unit :=
  if Ledger.isComparable id || (Ledger.hasRoom id && !compared) then return else throw .storage

/-- The record of that number. -/
def findRecord (id : Int) : Action (Option Record) := do
  let ledger := (← get).ledger
  match ledger.find? id with
  | some record => return some record
  | none =>
    checkNumber id (!ledger.records.isEmpty)
    return none

/-- The newest committed record of a routine on which a choice may fall. A choice
without a number cannot be compared with any record. -/
def findCommitted (identity : Identity) (choice : Choice) : Action (Option Record) := do
  let ledger := (← get).ledger
  let compared := !(ledger.committed identity).isEmpty
  match ledger.latestUpdated? identity choice, choice with
  | some record, _ => return some record
  | none, .newest => return none
  | none, .numbered id =>
    checkNumber id compared
    return none
  | none, .unnumbered => if compared then throw .storage else return none

/-- Takes a record to its next status. -/
def advanceRecord (id : Int) (target : Status) (breakdown : Option Breakdown := none) :
    Action Record := do
  let desk ← get
  match desk.ledger.find? id with
  | none =>
    checkNumber id (!desk.ledger.records.isEmpty)
    throw (.noRecord id)
  | some record =>
    match record.stage.step? desk.now target with
    | none => throw (.transition id record.status target)
    | some stage =>
      let advanced := { record with stage }
      transaction (.ledger (.mark id target))
        [.setRecord advanced, .insertEvent desk.now record.id (some record.status) target]
        breakdown
      return advanced

/-- Notes that the change of a record was committed. -/
def markUpdated (id : Int) (breakdown : Option Breakdown := none) : Action Record := do
  if (← get).outage.updates then throw (.ledger (.fullAtMark id))
  advanceRecord id .updated breakdown

/-- Notes that the change of a record was taken back. -/
def markRolledBack (id : Int) (breakdown : Option Breakdown := none) : Action Record :=
  advanceRecord id .rolledBack breakdown

/-- The steps of a record. -/
def recordEvents (id : Int) : Action (List Event) := do
  let ledger := (← get).ledger
  match ledger.eventsOf? id with
  | some [] =>
    checkNumber id (ledger.events ≠ some [])
    return []
  | some events => return events
  | none => throw .storage

/-- Drops the table of events, which has to be there. -/
def dropEventTable : Action Unit := do
  let desk ← get
  if desk.ledger.events.isNone then throw .storage
  set { desk with ledger := desk.ledger.dropEvents }

/-- The number of records of each status. -/
def countRecords : Action Counts := do
  return (← get).ledger.counts

/-- Removes all events and records. -/
def removeRecords (breakdown : Option Breakdown := none) : Action Unit :=
  transaction .storage [.deleteEvents, .deleteRecords] breakdown

/-- Removes all records in the given way, and says how many there were. -/
def purgeBy (remove : Action Unit) (confirmed : Bool) : Action Nat := do
  if !confirmed then throw .unconfirmedPurge
  let removed := (← get).ledger.records.length
  remove
  say .info .ledger s!"Purged {removed} backup record(s)"
  return removed

/-- Removes all records. -/
def purge : Bool → Action Nat :=
  purgeBy removeRecords

/-! ### Texts -/

/-- Renews a text, and logs the statements that were left alone, even if a rule
cannot be applied to it afterwards. -/
def renewLogged (rules : List Rule) (text : Text) : Action Report := do
  let report := renew rules text
  report.skips.forM fun skip =>
    say .debug .statements s!"Skipping RAISERROR at {skip.position}: {skip.reason.message}"
  if renewalOverflows rules text then throw (.overflow ⟨⟩)
  return report

end SqlRenewal
