import SqlRenewal.Routine.Identity

/-!
# Backup records and events

A backup record keeps the text of a routine before a change, and the text after
it. The record goes through three stages, only forwards: the text is backed up,
the change is committed, the change is taken back. Each stage holds the times of
the steps that led to it, so a time is present exactly when its step was taken.

An event notes one step of one record.
-/
namespace SqlRenewal

/-- How far a record has come. -/
inductive Status where
  | backedUp
  | updated
  | rolledBack
deriving DecidableEq, Repr

/-- The name of a status. -/
def Status.name : Status → String
  | .backedUp => "BACKED_UP"
  | .updated => "UPDATED"
  | .rolledBack => "ROLLED_BACK"

/-- All statuses, in the order in which a record takes them. -/
def Status.all : List Status :=
  [.backedUp, .updated, .rolledBack]

/-- The status of that name. -/
def Status.ofName? (name : Text) : Option Status :=
  Status.all.find? fun status => status.name.toList == name

/-- The status that follows another one. -/
def Status.next? : Status → Option Status
  | .backedUp => some .updated
  | .updated => some .rolledBack
  | .rolledBack => none

/-- A time, as it is written. -/
abbrev Stamp := Text

/-- A status with the times of the steps that led to it. -/
inductive Stage where
  | backedUp
  | updated (updatedAt : Stamp)
  | rolledBack (updatedAt rolledBackAt : Stamp)
deriving DecidableEq, Repr

namespace Stage

/-- The status of a stage. -/
def status : Stage → Status
  | .backedUp => .backedUp
  | .updated _ => .updated
  | .rolledBack _ _ => .rolledBack

/-- The time of the commit. -/
def updatedAt : Stage → Option Stamp
  | .backedUp => none
  | .updated stamp => some stamp
  | .rolledBack stamp _ => some stamp

/-- The time at which the change was taken back. -/
def rolledBackAt : Stage → Option Stamp
  | .backedUp => none
  | .updated _ => none
  | .rolledBack _ stamp => some stamp

/-- The next stage, if the step leads to the given status. -/
def step? (now : Stamp) (target : Status) : Stage → Option Stage
  | .backedUp => if target = .updated then some (.updated now) else none
  | .updated stamp => if target = .rolledBack then some (.rolledBack stamp now) else none
  | .rolledBack _ _ => none

end Stage

/-- A backup of one routine, made before one change. -/
structure Record where
  id : Nat
  identity : Identity
  before : Text
  after : Option Text
  createdAt : Stamp
  stage : Stage
deriving DecidableEq, Repr

/-- The status of a record. -/
def Record.status (record : Record) : Status :=
  record.stage.status

/-- One step of one record; the first one comes from no status. -/
structure Event where
  id : Nat
  record : Nat
  source : Option Status
  target : Status
  stamp : Stamp
deriving DecidableEq, Repr

end SqlRenewal
