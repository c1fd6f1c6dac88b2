import SqlRenewal.Files.Tree

/-!
# Failures

Everything that can stop an operation on routines, backups or files. Each failure
has a kind, which reports name, and a message.
-/
namespace SqlRenewal

/-- Why the text of a routine could not be written. -/
inductive CommitFault where
  | noRoutine
  | noFile (path : Path)
  | file (fault : FileFault)
  | denied
  | noTable
  | noStore
deriving DecidableEq, Repr

/-- Why a step of a backup could not be noted. -/
inductive LedgerFault where
  | backup (identity : Identity)
  | mark (id : Int) (target : Status)
  | fullAtBackup (identity : Identity)
  | fullAtMark (id : Int)
deriving DecidableEq, Repr

/-- What a setting names instead of a level for the log: the layout of its lines,
or the styles of layouts. -/
inductive LevelFault where
  | layout
  | styles
deriving DecidableEq, Repr

/-- What was looked for when a command started. -/
inductive Place where
  | ledger
  | definitions
  | folder
deriving DecidableEq, Repr

/-- Why an operation stopped. -/
inductive Failure where
  | badName (fault : IdentityFault)
  | noRoutine (identity : Identity)
  | noStoreFor (identity : Identity)
  | noRecord (id : Int)
  | commit (identity : Identity) (fault : CommitFault)
  | ledger (fault : LedgerFault)
  | transition (id : Int) (current target : Status)
  | noBackup (identity : Identity) (choice : Choice)
  /-- The database refused, for reasons of its own. -/
  | storage
  | notFound (place : Place) (path : Path)
  | file (fault : FileFault)
  | decoding (fault : Utf8.Fault)
  /-- A file was asked for, but not named. -/
  | noPath
  | unconfirmedPurge
  | batchSize (size : Int)
  | noStore
  | unwritable (fault : Json.Fault)
  | logLevel (fault : LevelFault)
  /-- A rule could not be applied. -/
  | overflow (fault : WordOverflow)
deriving DecidableEq, Repr

/-- All that is said about a missing table. -/
def storageMessage : String := "<storage error>"

/-- The wording of a commit that failed. -/
def CommitFault.message : CommitFault → String
  | .noRoutine => "unit does not exist"
  | .noFile path => String.ofList path.spelling ++ " does not exist"
  | .file fault => fault.message
  | .denied => "permission denied"
  | .noTable => storageMessage
  | .noStore => "no definition store configured"

/-- The wording of a step that could not be noted. -/
def LedgerFault.message : LedgerFault → String
  | .backup identity =>
    "Could not back up " ++ String.ofList identity.qualified ++ ": " ++ storageMessage
  | .mark id target => s!"Could not mark backup {id} {target.name}: {storageMessage}"
  | .fullAtBackup identity => "disk full while backing up " ++ String.ofList identity.qualified
  | .fullAtMark id => s!"disk full while marking backup {id}"

/-- The layout of log lines that a setting may name. -/
def logLayout : String := "%(levelname)s:%(name)s:%(message)s"

/-- The wording of a setting that names no level. -/
def LevelFault.message : LevelFault → String
  | .layout => "Unknown level: '" ++ logLayout ++ "'"
  | .styles =>
    "Level not an integer or a valid string: \x7b'%': (<class 'logging.PercentStyle'>, '" ++
      logLayout ++ "'), '\x7b': (<class 'logging.StrFormatStyle'>, " ++
      "'\x7blevelname\x7d:\x7bname\x7d:\x7bmessage\x7d'), " ++
      "'$': (<class 'logging.StringTemplateStyle'>, " ++
      "'$\x7blevelname\x7d:$\x7bname\x7d:$\x7bmessage\x7d')\x7d"

/-- What a place is called when it is missing. -/
def Place.description : Place → String
  | .ledger => "Journal database"
  | .definitions => "Definitions database"
  | .folder => "Definitions directory"

namespace Failure

/-- The kind that reports name. -/
def kind : Failure → String
  | .badName _ => "ValueError"
  | .noRoutine _ => "KeyError"
  | .noStoreFor _ => "KeyError"
  | .noRecord _ => "KeyError"
  | .commit _ _ => "CommitFailure"
  | .ledger _ => "JournalWriteFailure"
  | .transition _ _ _ => "InvalidTransition"
  | .noBackup _ _ => "RollbackNotFound"
  | .storage => "StorageError"
  | .notFound _ _ => "FileNotFoundError"
  | .file (.missing _) => "FileNotFoundError"
  | .file (.existing _) => "FileExistsError"
  | .file (.notDirectory _) => "NotADirectoryError"
  | .file (.directory _) => "IsADirectoryError"
  | .file (.tooLong _) => "OSError"
  | .file .nullCharacter => "ValueError"
  | .decoding _ => "UnicodeDecodeError"
  | .noPath => "TypeError"
  | .unconfirmedPurge => "ValueError"
  | .batchSize _ => "ValueError"
  | .noStore => "ValueError"
  | .unwritable _ => "TypeError"
  | .logLevel .layout => "ValueError"
  | .logLevel .styles => "TypeError"
  | .overflow _ => "OverflowError"

/-- The wording of a failure. -/
def message : Failure → String
  | .badName fault => fault.message
  | .noRoutine identity => "Unit not found: " ++ String.ofList identity.qualified
  | .noStoreFor identity => String.ofList identity.qualified
  | .noRecord id => s!"Backup record not found: {id}"
  | .commit identity fault =>
    "Commit failed for " ++ String.ofList identity.qualified ++ ": " ++ fault.message
  | .ledger fault => fault.message
  | .transition id current target =>
    s!"Record {id}: {current.name} -> {target.name} is not allowed"
  | .noBackup identity choice =>
    "No backup found for procedure: " ++ String.ofList identity.qualified ++ choice.remark
  | .storage => storageMessage
  | .notFound place path => place.description ++ " not found: " ++ String.ofList path.spelling
  | .file fault => fault.message
  | .decoding fault => fault.message
  | .noPath => "expected str, bytes or os.PathLike object, not list"
  | .unconfirmedPurge => "Refusing to purge the backup journal without confirm=True"
  | .batchSize size => s!"batch_size must be >= 0, got {size}"
  | .noStore => "No definition store: pass --definitions-db or --definitions-dir"
  | .unwritable fault => fault.message
  | .logLevel fault => fault.message
  | .overflow fault => fault.message

/-- The failure is about a key that does not exist. -/
def isMissingKey : Failure → Bool
  | .noRoutine _ => true
  | .noStoreFor _ => true
  | .noRecord _ => true
  | _ => false

/-- The wording in a log or in a list of results, where a missing key is quoted. -/
def shown (failure : Failure) : String :=
  if failure.isMissingKey then String.ofList (Quoted.encode failure.message.toList)
  else failure.message

/-- A command answers the failure with a line in its log: something is missing, or
what was given has no meaning. Other failures end it at once. -/
def isExpected : Failure → Bool
  | .badName _ => true
  | .noRoutine _ => true
  | .noStoreFor _ => true
  | .noRecord _ => true
  | .commit _ _ => false
  | .ledger _ => false
  | .transition _ _ _ => true
  | .noBackup _ _ => false
  | .storage => false
  | .notFound _ _ => true
  | .file (.missing _) => true
  | .file .nullCharacter => true
  | .file _ => false
  | .decoding _ => true
  | .noPath => false
  | .unconfirmedPurge => true
  | .batchSize _ => true
  | .noStore => true
  | .unwritable _ => false
  | .logLevel _ => false
  | .overflow _ => false

/-- A file that has no text. -/
def ofRead : ReadFault → Failure
  | .file fault => .file fault
  | .decoding fault => .decoding fault

end Failure

end SqlRenewal
