import SqlRenewal.Proofs.Ledger.Entries

/-!
# Ledgers without times

Two ledgers can hold the same records and events, noted at other times. No step of a
record asks for a time: what is done to a ledger and then stripped of its times is what is
done, at no particular time, to the ledger that was stripped before.
-/
namespace SqlRenewal

/-- The stage without the times that led to it. -/
def Stage.timeless : Stage → Stage
  | .backedUp => .backedUp
  | .updated _ => .updated []
  | .rolledBack _ _ => .rolledBack [] []

/-- The record without its times. -/
def Record.timeless (record : Record) : Record :=
  { record with createdAt := [], stage := record.stage.timeless }

/-- The event without its time. -/
def Event.timeless (event : Event) : Event :=
  { event with stamp := [] }

/-- What a record went through does not depend on when. -/
@[simp] theorem Stage.status_timeless (stage : Stage) : stage.timeless.status = stage.status := by
  cases stage <;> rfl

/-- A step is allowed or not, whatever the time. -/
theorem Stage.step?_timeless (stage : Stage) (now : Stamp) (target : Status) :
    stage.timeless.step? [] target = (stage.step? now target).map Stage.timeless := by
  cases stage <;> simp only [Stage.timeless, Stage.step?]
  · split <;> rfl
  · split <;> rfl
  · rfl

namespace Ledger

/-- The ledger without its times. -/
def timeless (ledger : Ledger) : Ledger :=
  { ledger with
    records := ledger.records.map Record.timeless
    events := ledger.events.map (List.map Event.timeless) }

variable (ledger : Ledger)

/-- The entry of a draft makes the same ledger up to times, whatever the clock says: the time is
only written down. -/
theorem enter_timeless (now : Stamp) (draft : Draft) :
    (ledger.enter now draft).timeless = ledger.timeless.enter [] draft := by
  obtain ⟨identity, before, after, written⟩ := draft
  cases written <;> cases events : ledger.events <;>
    simp [timeless, enter, Draft.record, Draft.events, Draft.steps, Record.timeless, Stage.timeless,
      Event.timeless, events]

/-- Entries make the same ledger up to times, by induction over the drafts. One entry takes its
time from the clock and nothing else. -/
theorem enterAll_timeless (now : Stamp) (drafts : List Draft) :
    (ledger.enterAll now drafts).timeless = ledger.timeless.enterAll [] drafts := by
  induction drafts generalizing ledger with
  | nil => rfl
  | cons draft drafts inductionHypothesis =>
    have later := inductionHypothesis (ledger.enter now draft)
    rw [enter_timeless] at later
    exact later

/-- Ledgers that are equal up to numbers are so without their times, with the same renumbering: to
leave times out and to change numbers do not get in each other's way. -/
theorem EqualUpToNumbers.timeless {start first second : Ledger} {number numberEvent : Nat → Nat}
    (equal : start.EqualUpToNumbers first second number numberEvent) :
    start.timeless.EqualUpToNumbers first.timeless second.timeless number numberEvent := by
  obtain ⟨numbers, numbersEvent, ⟨new, new', records, records', renumbered⟩,
    ⟨old, added, added', noted, events, events', renumberedEvents⟩, lastRecord, lastEvent⟩ := equal
  refine ⟨numbers, numbersEvent, ⟨new.map Record.timeless, new'.map Record.timeless, ?_, ?_, ?_⟩,
    ⟨old.map Event.timeless, added.map Event.timeless, added'.map Event.timeless, ?_, ?_, ?_, ?_⟩,
    lastRecord, lastEvent⟩
  · rw [Ledger.timeless, records, List.map_append]
    rfl
  · rw [Ledger.timeless, records', List.map_append]
    rfl
  · have stripped := renumbered.map Record.timeless
    rwa [List.map_map] at stripped ⊢
  · rw [Ledger.timeless, noted, Option.map_some]
  · rw [Ledger.timeless, events, Option.map_some, List.map_append]
  · rw [Ledger.timeless, events', Option.map_some, List.map_append]
  · have stripped := renumberedEvents.map Event.timeless
    rwa [List.map_map] at stripped ⊢

/-- The committed records of a routine are chosen by status and identity, which have no time in
them. -/
theorem committed_timeless (identity : Identity) :
    ledger.timeless.committed identity = (ledger.committed identity).map Record.timeless := by
  have kept : onStack identity ∘ Record.timeless = onStack identity := by
    funext record
    simp [onStack, Record.timeless, Record.status]
  rw [committed_eq, committed_eq, timeless, List.filter_map, kept]

/-- The newest committed record is found by its position and its number, not by its times. -/
theorem latestUpdated?_timeless (identity : Identity) (choice : Choice) :
    ledger.timeless.latestUpdated? identity choice =
      (ledger.latestUpdated? identity choice).map Record.timeless := by
  have kept : (fun record => choice.admits record) ∘ Record.timeless =
      fun record => choice.admits record := by
    funext record
    cases choice <;> rfl
  rw [latestUpdated?, latestUpdated?, committed_timeless, List.filter_map, kept,
    List.getLast?_map]

/-- A record is found by its number alone. -/
theorem find?_timeless (id : Int) :
    ledger.timeless.find? id = (ledger.find? id).map Record.timeless := by
  rw [find?, find?, timeless, List.find?_map]
  rfl

/-- A record is replaced where its number stands, and times have no part in that. -/
theorem replaceRecord_timeless (record : Record) (records : List Record) :
    replaceRecord record.timeless (records.map Record.timeless) =
      (replaceRecord record records).map Record.timeless := by
  rw [replaceRecord, replaceRecord, List.map_map, List.map_map]
  refine List.map_congr_left ?_
  intro other _
  by_cases same : other.id = record.id
  · simp [Record.timeless, same]
  · simp [Record.timeless, same]

/-- A step of a record is taken or refused, whatever the time: it is found by its number, and its
next status does not depend on when. -/
theorem advance_timeless (now : Stamp) (id : Int) (target : Status) :
    ledger.timeless.advance [] id target = (ledger.advance now id target).map fun ending =>
      (ending.1.timeless, ending.2.timeless) := by
  simp only [advance, find?_timeless]
  cases ledger.find? id with
  | none => rfl
  | some record =>
    simp only [Option.map_some]
    have stepped := record.stage.step?_timeless now target
    cases next : record.stage.step? now target with
    | none =>
      rw [next] at stepped
      simp [Record.timeless, stepped, Except.map, Record.status]
    | some stage =>
      rw [next] at stepped
      cases events : ledger.events with
      | none => simp [Record.timeless, stepped, timeless, events, Except.map]
      | some noted =>
        have replaced := replaceRecord_timeless { record with stage } ledger.records
        simp only [Record.timeless] at replaced
        simp [Record.timeless, stepped, timeless, events, Except.map, Event.timeless, Record.status,
          ← replaced]

end Ledger

end SqlRenewal
