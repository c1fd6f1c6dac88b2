import SqlRenewal.Work.Document

/-!
# Exporting and cleaning the ledger

An export writes all records to a file, one to a line. Cleaning removes the
records, after an export if one is asked for; without a confirmation it only says
what would go.
-/
namespace SqlRenewal

/-- Writes values to a file, one to a line, and makes the directories above it. -/
def saveLines (values : List Json) (path : Path) : Action Unit := do
  let (made, outcome) := (← get).files.makeDirectories path.directory
  modify fun desk => { desk with files := made }
  orFail (outcome.mapError Failure.file)
  let text ← orFail ((Json.lines values).mapError Failure.unwritable)
  let written ← orFail ((made.writeText path text).mapError Failure.file)
  modify fun desk => { desk with files := written }

/-- Writes all records to a file in the given way, and says how many there are. -/
def exportRecordsBy (save : List Json → Path → Action Unit) (path : Path) : Action Nat := do
  let records := (← get).ledger.records
  save (records.map Record.toJson) path
  return records.length

/-- Writes all records to a file. -/
def exportRecords : Path → Action Nat :=
  exportRecordsBy saveLines

/-- What a cleaning did, or would do. -/
structure Cleanup where
  total : Nat
  updated : Nat
  purged : Bool
  exportedTo : Option Path := none
deriving DecidableEq, Repr

/-- The layout of a cleaning. -/
def Cleanup.toJson (cleanup : Cleanup) : Json :=
  .fieldsOf [("total_records", .nat cleanup.total), ("updated_records", .nat cleanup.updated),
    ("purged", .bool cleanup.purged),
    ("exported_to", .optional (fun path => .text path.spelling) cleanup.exportedTo)]

/-- Cleans the ledger. How its records are counted, exported and removed is given. -/
def cleanUpBy (count : Action Counts) (save : Path → Action Nat) (empty : Bool → Action Nat)
    (confirmed : Bool) (target : Option Path) : Action Cleanup := do
  let counts ← count
  if !confirmed then
    say .warning .runs
      s!"Cleanup disabled for safety: {counts.total} backup record(s) would be removed"
    return { total := counts.total, updated := counts.updated, purged := false }
  if let some path := target then
    let _ ← save path
  let _ ← empty true
  return { total := counts.total, updated := counts.updated, purged := true, exportedTo := target }

/-- Cleans the ledger. -/
def cleanUp : Bool → Option Path → Action Cleanup :=
  cleanUpBy countRecords exportRecords purge

end SqlRenewal
