import SqlRenewal.Ledger.Record

/-!
# The ledger of backups

Records are only ever added at the end, and numbered as they are added. Numbers
are never used twice, not even after all records have been removed, so the
ledger keeps the last ones that it gave.

Every step is also noted as an event. The table of events can be missing; then no
step can be noted, and therefore none is taken.
-/
namespace SqlRenewal

/-- All backups, with the steps they went through. -/
structure Ledger where
  records : List Record := []
  /-- The events, unless their table is missing. -/
  events : Option (List Event) := some []
  lastRecord : Nat := 0
  lastEvent : Nat := 0
deriving DecidableEq, Repr

/-- Which of the committed records of a routine is meant. -/
inductive Choice where
  | newest
  | numbered (id : Int)
  /-- A number was announced and then not given. No record has it. -/
  | unnumbered
deriving DecidableEq, Repr

/-- The record of a number, or the newest one without a number. -/
def Choice.ofNumber? : Option Int → Choice
  | none => .newest
  | some id => .numbered id

/-- What a message says about a choice. -/
def Choice.remark : Choice → String
  | .newest => ""
  | .numbered id => s!" (backup {id})"
  | .unnumbered => " (backup [])"

/-- The choice may fall on the record. -/
def Choice.admits (record : Record) : Choice → Bool
  | .newest => true
  | .numbered id => id == (record.id : Int)
  | .unnumbered => false

/-- A number of records for each status. -/
structure Counts where
  backedUp : Nat
  updated : Nat
  rolledBack : Nat
deriving DecidableEq, Repr

/-- The number of records of any status. -/
def Counts.total (counts : Counts) : Nat :=
  counts.backedUp + counts.updated + counts.rolledBack

namespace Ledger

/-- The database can compare a number with those of its records. It has 128 bits
for that, one of them for the sign. -/
def isComparable (id : Int) : Bool :=
  decide (-170141183460469231731687303715884105728 ≤ id) &&
    decide (id ≤ 170141183460469231731687303715884105727)

/-- The database has room for a number: 128 bits, with or without a sign. -/
def hasRoom (id : Int) : Bool :=
  decide (-170141183460469231731687303715884105728 ≤ id) &&
    decide (id ≤ 340282366920938463463374607431768211455)

/-- The record of that number. Numbers from outside may be any integers. -/
def find? (ledger : Ledger) (id : Int) : Option Record :=
  ledger.records.find? fun record => (record.id : Int) == id

/-- The record that the next backup makes. -/
def nextRecord (ledger : Ledger) (now : Stamp) (identity : Identity) (before : Text)
    (after : Option Text) : Record :=
  ⟨ledger.lastRecord + 1, identity, before, after, now, .backedUp⟩

/-- The records with one of them put in the place of those of its number. -/
def replaceRecord (record : Record) (records : List Record) : List Record :=
  records.map fun other => if other.id = record.id then record else other

/-- The records of a status and of a routine, where given, oldest first. -/
def select (ledger : Ledger) (status : Option Status) (identity : Option Identity) :
    List Record :=
  ledger.records.filter fun record =>
    status.all (· == record.status) && identity.all (· == record.identity)

/-- The records of a routine, oldest first. -/
def history (ledger : Ledger) (identity : Identity) : List Record :=
  ledger.select none (some identity)

/-- The committed records of a routine, oldest first. -/
def committed (ledger : Ledger) (identity : Identity) : List Record :=
  ledger.select (some .updated) (some identity)

/-- The newest committed record of a routine on which a choice may fall. -/
def latestUpdated? (ledger : Ledger) (identity : Identity) (choice : Choice) : Option Record :=
  ((ledger.committed identity).filter fun record => choice.admits record).getLast?

/-- The steps of a record, unless their table is missing. -/
def eventsOf? (ledger : Ledger) (id : Int) : Option (List Event) :=
  ledger.events.map fun events => events.filter fun event => (event.record : Int) == id

/-- The number of records of each status. -/
def counts (ledger : Ledger) : Counts :=
  { backedUp := ledger.records.countP fun record => record.status == .backedUp
    updated := ledger.records.countP fun record => record.status == .updated
    rolledBack := ledger.records.countP fun record => record.status == .rolledBack }

/-- The ledger without its table of events. -/
def dropEvents (ledger : Ledger) : Ledger :=
  { ledger with events := none }

/-- The ledger with a table of events, an empty one if it was missing. -/
def restore (ledger : Ledger) : Ledger :=
  { ledger with events := some (ledger.events.getD []) }

end Ledger

end SqlRenewal
