import SqlRenewal.Ledger.Basic

/-!
# Transactions

A step of a record writes to two tables, and so does the removal of everything. The
writes of such a step stand in one transaction: either all of them take effect,
or none of them does. Only the numbers that were drawn on the way are never drawn
again, not even after the transaction was undone.

A write is refused if its table is missing. Apart from that the storage can break
down, before a transaction begins, at any of its writes, or at their commit.
-/
namespace SqlRenewal

/-- What is done to the tables in a transaction. -/
inductive Write where
  /-- Adds a record, under the next number. -/
  | insertRecord (now : Stamp) (identity : Identity) (before : Text) (after : Option Text)
  /-- Puts a record in the place of the one of its number. -/
  | setRecord (record : Record)
  /-- Notes a step of the record of that number, under the next number of an event. -/
  | insertEvent (now : Stamp) (record : Nat) (source : Option Status) (target : Status)
  | deleteEvents
  | deleteRecords
deriving DecidableEq, Repr

/-- A failure of the storage during a transaction. -/
inductive Breakdown where
  | atBegin
  /-- So many writes are made, and what comes next is not: one more write, or the
  commit. More numbers can be lost then than were drawn. -/
  | behind (writes : Nat) (lostRecords lostEvents : Nat)
deriving DecidableEq, Repr

/-- How a transaction ends. -/
inductive Closing where
  | committed
  | undone
  /-- It did not even begin. -/
  | unbegun
deriving DecidableEq, Repr

/-- The ledger after a write, unless that is refused. -/
def Write.execute? (ledger : Ledger) : Write → Option Ledger
  | .insertRecord now identity before after =>
    let record := ledger.nextRecord now identity before after
    some { ledger with records := ledger.records ++ [record], lastRecord := record.id }
  | .setRecord record =>
    some { ledger with records := Ledger.replaceRecord record ledger.records }
  | .insertEvent now record source target =>
    ledger.events.map fun events =>
      let event : Event := ⟨ledger.lastEvent + 1, record, source, target, now⟩
      { ledger with events := some (events ++ [event]), lastEvent := event.id }
  | .deleteEvents => ledger.events.map fun _ => { ledger with events := some [] }
  | .deleteRecords => some { ledger with records := [] }

namespace Ledger

/-- Makes one write after the other, up to the first that is refused, and says
whether there was none. -/
def carryOut (ledger : Ledger) : List Write → Bool × Ledger
  | [] => (true, ledger)
  | write :: later =>
    match write.execute? ledger with
    | none => (false, ledger)
    | some next => next.carryOut later

/-- The ledger with the tables that it had when a transaction began. -/
def undo (start ledger : Ledger) : Ledger :=
  { ledger with records := start.records, events := start.events }

/-- Makes writes in one transaction. -/
def transact (ledger : Ledger) (breakdown : Option Breakdown) (writes : List Write) :
    Closing × Ledger :=
  match breakdown with
  | none =>
    match ledger.carryOut writes with
    | (true, after) => (.committed, after)
    | (false, after) => (.undone, ledger.undo after)
  | some .atBegin => (.unbegun, ledger)
  | some (.behind count lostRecords lostEvents) =>
    let after := (ledger.carryOut (writes.take count)).2
    (.undone, ledger.undo { after with
      lastRecord := after.lastRecord + lostRecords
      lastEvent := after.lastEvent + lostEvents })

end Ledger

end SqlRenewal
