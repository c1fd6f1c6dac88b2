import SqlRenewal.Ledger.Transaction

/-!
# What transactions come to

The tables after a transaction are those that all of its writes make, or those
from which it began: that is what the two outcomes of a transaction are. On the way
numbers are only ever drawn, so whatever is undone has the numbers grown at most.

While the storage does not break down, the three transactions of the program come to
three steps of a ledger: a record with its event is added, a record takes its next
step and an event notes that, or both tables are emptied. Each of them is refused if
there is no table of events.
-/
namespace SqlRenewal

/-! ### Numbers are drawn -/

/-- The last numbers of a ledger have grown, or are the same. -/
structure Ledger.Draws (ledger after : Ledger) : Prop where
  lastRecord : ledger.lastRecord ≤ after.lastRecord
  lastEvent : ledger.lastEvent ≤ after.lastEvent

/-- The tables stay as they are, and numbers may be lost. -/
structure Ledger.Idles (ledger after : Ledger) : Prop where
  records : after.records = ledger.records
  events : after.events = ledger.events
  lastRecord : ledger.lastRecord ≤ after.lastRecord
  lastEvent : ledger.lastEvent ≤ after.lastEvent

/-- No write gives a number back: each of them leaves the last numbers alone, or adds one to
one of them. -/
theorem Write.execute?_draws {write : Write} {ledger after : Ledger}
    (executed : write.execute? ledger = some after) : ledger.Draws after := by
  cases write with
  | insertRecord now identity before text =>
    cases executed
    exact ⟨Nat.le_succ _, Nat.le_refl _⟩
  | setRecord record =>
    cases executed
    exact ⟨Nat.le_refl _, Nat.le_refl _⟩
  | insertEvent now record source target =>
    obtain ⟨events, _, rfl⟩ := Option.map_eq_some_iff.mp executed
    exact ⟨Nat.le_refl _, Nat.le_succ _⟩
  | deleteEvents =>
    obtain ⟨events, _, rfl⟩ := Option.map_eq_some_iff.mp executed
    exact ⟨Nat.le_refl _, Nat.le_refl _⟩
  | deleteRecords =>
    cases executed
    exact ⟨Nat.le_refl _, Nat.le_refl _⟩

namespace Ledger

variable {ledger after : Ledger}

/-- A ledger that stays as it is has drawn nothing. -/
theorem Draws.refl (ledger : Ledger) : ledger.Draws ledger :=
  ⟨Nat.le_refl _, Nat.le_refl _⟩

/-- Numbers that are drawn twice have grown over both. -/
theorem Draws.trans {middle : Ledger} (first : ledger.Draws middle) (second : middle.Draws after) :
    ledger.Draws after :=
  ⟨Nat.le_trans first.lastRecord second.lastRecord, Nat.le_trans first.lastEvent second.lastEvent⟩

/-- However many writes are made, numbers are only drawn: by induction over the writes. -/
theorem draws_carryOut (ledger : Ledger) (writes : List Write) :
    ledger.Draws (ledger.carryOut writes).2 := by
  induction writes generalizing ledger with
  | nil => exact .refl ledger
  | cons write later inductionHypothesis =>
    rw [carryOut]
    cases executed : write.execute? ledger with
    | none => exact .refl ledger
    | some next => exact (Write.execute?_draws executed).trans (inductionHypothesis next)

/-! ### Transactions -/

/-- A ledger that stays as it is idles, and has lost no numbers. -/
theorem Idles.refl (ledger : Ledger) : ledger.Idles ledger :=
  ⟨rfl, rfl, Nat.le_refl _, Nat.le_refl _⟩

/-- What is undone leaves nothing but the numbers that it drew. -/
theorem Draws.idles_undo (draws : ledger.Draws after) : ledger.Idles (ledger.undo after) :=
  ⟨rfl, rfl, draws.lastRecord, draws.lastEvent⟩

/-- A transaction is committed if the storage does not break down and no write is refused;
its tables are those after all the writes. -/
theorem transact_eq_committed_iff {breakdown : Option Breakdown} {writes : List Write} :
    ledger.transact breakdown writes = (.committed, after) ↔
      breakdown = none ∧ ledger.carryOut writes = (true, after) := by
  cases breakdown with
  | none =>
    rw [transact]
    obtain ⟨carried, middle⟩ := ledger.carryOut writes
    cases carried <;> simp
  | some breakdown => cases breakdown <;> simp [transact]

/-- A transaction that is not committed leaves the tables as they were, wherever it was given up:
before it began nothing was done, and behind any number of writes the tables are put back. Only
the numbers that were drawn or lost have grown. -/
theorem idles_transact {breakdown : Option Breakdown} {writes : List Write}
    (uncommitted : (ledger.transact breakdown writes).1 ≠ .committed) :
    ledger.Idles (ledger.transact breakdown writes).2 := by
  cases breakdown with
  | none =>
    have draws := ledger.draws_carryOut writes
    cases ended : ledger.carryOut writes with
    | mk carried middle =>
      rw [ended] at draws
      cases carried with
      | true => simp [transact, ended] at uncommitted
      | false =>
        rw [transact, ended]
        exact draws.idles_undo
  | some breakdown =>
    cases breakdown with
    | atBegin => exact .refl ledger
    | behind count lostRecords lostEvents =>
      have draws := ledger.draws_carryOut (writes.take count)
      refine Draws.idles_undo ⟨?_, ?_⟩
      · exact Nat.le_add_right_of_le draws.lastRecord
      · exact Nat.le_add_right_of_le draws.lastEvent

end Ledger

/-! ### The steps of a ledger -/

/-- Why a step of a record is refused. -/
inductive StepFault where
  | noRecord
  | notAllowed (current : Status)
  | noEvents
deriving DecidableEq, Repr

namespace Ledger

/-- Backs up the text of a routine. The record is absent when its event could not
be noted; its number is used all the same. -/
def append (ledger : Ledger) (now : Stamp) (identity : Identity) (before : Text)
    (after : Option Text) : Ledger × Option Record :=
  let record := ledger.nextRecord now identity before after
  match ledger.events with
  | none => ({ ledger with lastRecord := record.id }, none)
  | some events =>
    let event : Event := ⟨ledger.lastEvent + 1, record.id, none, .backedUp, now⟩
    ({ records := ledger.records ++ [record]
       events := some (events ++ [event])
       lastRecord := record.id
       lastEvent := event.id }, some record)

/-- Takes a record to the given status, if that is its next one. -/
def advance (ledger : Ledger) (now : Stamp) (id : Int) (target : Status) :
    Except StepFault (Ledger × Record) :=
  match ledger.find? id with
  | none => .error .noRecord
  | some record =>
    match record.stage.step? now target with
    | none => .error (.notAllowed record.status)
    | some stage =>
      match ledger.events with
      | none => .error .noEvents
      | some events =>
        let advanced := { record with stage }
        let event : Event := ⟨ledger.lastEvent + 1, record.id, some record.status, target, now⟩
        .ok ({ ledger with
          records := replaceRecord advanced ledger.records
          events := some (events ++ [event])
          lastEvent := event.id }, advanced)

/-- Removes all records and events, unless the table of events is missing. The
last numbers stay. -/
def clear? (ledger : Ledger) : Option Ledger :=
  ledger.events.map fun _ => { ledger with records := [], events := some [] }

/-- A record is inserted before its event, so a refused event takes back a record whose number
is drawn already. -/
theorem transact_append (ledger : Ledger) (now : Stamp) (identity : Identity) (before : Text)
    (after : Option Text) :
    ledger.transact none [.insertRecord now identity before after,
        .insertEvent now (ledger.nextRecord now identity before after).id none .backedUp] =
      match ledger.append now identity before after with
      | (backed, some _) => (.committed, backed)
      | (backed, none) => (.undone, backed) := by
  cases noted : ledger.events <;>
    simp [transact, carryOut, Write.execute?, append, undo, noted]

/-- The two writes of a step put the new record in its place, and note its event. -/
theorem transact_advance {ledger : Ledger} {now : Stamp} {id : Int} {target : Status}
    {record : Record} {stage : Stage} (found : ledger.find? id = some record)
    (next : record.stage.step? now target = some stage) :
    ledger.transact none [.setRecord { record with stage },
        .insertEvent now record.id (some record.status) target] =
      match ledger.advance now id target with
      | .ok (advanced, _) => (.committed, advanced)
      | .error _ => (.undone, ledger) := by
  cases noted : ledger.events with
  | none =>
    simp only [transact, carryOut, Write.execute?, advance, found, next, noted,
      Option.map_none]
    rfl
  | some events =>
    simp [transact, carryOut, Write.execute?, advance, found, next, noted]

/-- Without a table of events already the first of the two writes is refused. -/
theorem transact_clear (ledger : Ledger) :
    ledger.transact none [.deleteEvents, .deleteRecords] =
      match ledger.clear? with
      | some cleared => (.committed, cleared)
      | none => (.undone, ledger) := by
  cases noted : ledger.events with
  | none =>
    simp only [transact, carryOut, Write.execute?, clear?, noted, Option.map_none]
    rfl
  | some events => simp [transact, carryOut, Write.execute?, clear?, noted]

end Ledger

end SqlRenewal
