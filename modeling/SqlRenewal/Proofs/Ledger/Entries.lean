import Mathlib
import SqlRenewal.Proofs.Ledger.Stack

/-!
# Entries of changes

A change that makes a backup enters one record in the ledger, with an event for the
backup and another one for the text that was written. A row of changes enters one record
after the other.

If the same changes are made in another order, the ledger holds the same records and
events, and only their numbers are others: the new numbers of the one ledger lead to those
of the other by a renumbering.
-/
namespace SqlRenewal

/-- What a change enters in the ledger. -/
structure Draft where
  identity : Identity
  before : Text
  after : Text
  /-- The new text was written, not only backed up. -/
  written : Bool

namespace Draft

variable (draft : Draft) (now : Stamp)

/-- The record of a change, under its number. -/
def record (id : Nat) : Record :=
  ⟨id, draft.identity, draft.before, some draft.after, now,
    if draft.written then .updated now else .backedUp⟩

/-- The events of a change, under the number of its record and behind the last event. -/
def events (id last : Nat) : List Event :=
  ⟨last + 1, id, none, .backedUp, now⟩ ::
    if draft.written then [⟨last + 2, id, some .backedUp, .updated, now⟩] else []

/-- The number of events of a change. -/
def steps : Nat :=
  if draft.written then 2 else 1

end Draft

namespace Ledger

/-- The ledger with the entry of one more change. -/
def enter (ledger : Ledger) (now : Stamp) (draft : Draft) : Ledger :=
  { records := ledger.records ++ [draft.record now (ledger.lastRecord + 1)]
    events := ledger.events.map (· ++ draft.events now (ledger.lastRecord + 1) ledger.lastEvent)
    lastRecord := ledger.lastRecord + 1
    lastEvent := ledger.lastEvent + draft.steps }

/-- The ledger with the entries of changes. -/
def enterAll (ledger : Ledger) (now : Stamp) (drafts : List Draft) : Ledger :=
  drafts.foldl (fun ledger draft => ledger.enter now draft) ledger

namespace Orderly

variable {ledger : Ledger} (orderly : ledger.Orderly) (now : Stamp) (identity : Identity)
  (before after : Text)

include orderly

/-- A backup is the entry of a draft that was not written: one record, and one event about it. -/
theorem append_eq_enter : ledger.append now identity before (some after) =
    (ledger.enter now ⟨identity, before, after, false⟩,
      some (ledger.nextRecord now identity before (some after))) := by
  obtain ⟨events, noted⟩ := orderly.noted
  simp [Ledger.append, Ledger.enter, noted, nextRecord, Draft.record, Draft.events, Draft.steps]

/-- The entry of a draft that was not written leaves an orderly ledger, since it is a backup. -/
theorem enter_unwritten : (ledger.enter now ⟨identity, before, after, false⟩).Orderly := by
  obtain ⟨backed, appended, _, orderlyBacked⟩ := orderly.append now identity before (some after)
  rw [orderly.append_eq_enter, Prod.mk.injEq] at appended
  rw [appended.1]
  exact orderlyBacked

/-- The new record is marked where it stands. It is the last one of the ledger and the only one of
its number, so the step of that number is its own. -/
theorem advance_enter : (ledger.enter now ⟨identity, before, after, false⟩).advance now
    (ledger.nextRecord now identity before (some after)).id .updated =
      .ok (ledger.enter now ⟨identity, before, after, true⟩,
        { ledger.nextRecord now identity before (some after) with stage := .updated now }) := by
  obtain ⟨events, noted⟩ := orderly.noted
  have entered := orderly.enter_unwritten now identity before after
  have last : (ledger.enter now ⟨identity, before, after, false⟩).records =
      ledger.records ++ [ledger.nextRecord now identity before (some after)] := rfl
  have marked : Ledger.replaceRecord
      { ledger.nextRecord now identity before (some after) with stage := .updated now }
      (ledger.enter now ⟨identity, before, after, false⟩).records =
        ledger.records ++ [{ ledger.nextRecord now identity before (some after) with
          stage := .updated now }] := entered.replaceRecord last rfl
  simp only [Ledger.advance, entered.find? last]
  simp only [Ledger.enter, Ledger.nextRecord, Draft.record, Draft.events, Draft.steps, Stage.step?,
    noted, if_true, if_false, Option.map_some, Bool.false_eq_true, Record.status, Stage.status,
    List.append_assoc, List.cons_append, List.nil_append] at marked ⊢
  rw [marked]

/-- The entry of a draft leaves an orderly ledger: it is a backup, and for a written draft the
mark of the record that was just added. -/
theorem enter (draft : Draft) : (ledger.enter now draft).Orderly := by
  obtain ⟨identity, before, after, written⟩ := draft
  have entered := orderly.enter_unwritten now identity before after
  cases written with
  | false => exact entered
  | true =>
    have last : (ledger.enter now ⟨identity, before, after, false⟩).records =
        ledger.records ++ [ledger.nextRecord now identity before (some after)] := rfl
    have next : (ledger.nextRecord now identity before (some after)).stage.step? now .updated =
        some (.updated now) := rfl
    obtain ⟨advanced, stepped, _, orderlyAdvanced⟩ := entered.advance last next
    rw [orderly.advance_enter, Except.ok.injEq, Prod.mk.injEq] at stepped
    rw [stepped.1]
    exact orderlyAdvanced

omit orderly in
/-- Entries leave an orderly ledger, by induction over the drafts. -/
theorem enterAll (orderly : ledger.Orderly) (now : Stamp) (drafts : List Draft) :
    (ledger.enterAll now drafts).Orderly := by
  induction drafts generalizing ledger with
  | nil => exact orderly
  | cons draft drafts inductionHypothesis => exact inductionHypothesis (orderly.enter now draft)

end Orderly

end Ledger

/-! ### Rows of entries -/

namespace Draft

/-- The records of changes, behind the last record. -/
def records (now : Stamp) : (last : Nat) → List Draft → List Record
  | _, [] => []
  | last, draft :: drafts => draft.record now (last + 1) :: records now (last + 1) drafts

/-- The events of changes, behind the last record and the last event. -/
def allEvents (now : Stamp) : (lastRecord lastEvent : Nat) → List Draft → List Event
  | _, _, [] => []
  | lastRecord, lastEvent, draft :: drafts =>
    draft.events now (lastRecord + 1) lastEvent ++
      allEvents now (lastRecord + 1) (lastEvent + draft.steps) drafts

/-- The number of events of changes. -/
def allSteps (drafts : List Draft) : Nat :=
  (drafts.map steps).sum

end Draft

/-- Entries add the records and the events of their drafts, with numbers that go on from the last
ones. The induction is over the drafts, for any ledger to begin with. -/
theorem Ledger.enterAll_eq (ledger : Ledger) (now : Stamp) (drafts : List Draft) :
    ledger.enterAll now drafts =
      { records := ledger.records ++ Draft.records now ledger.lastRecord drafts
        events := ledger.events.map
          (· ++ Draft.allEvents now ledger.lastRecord ledger.lastEvent drafts)
        lastRecord := ledger.lastRecord + drafts.length
        lastEvent := ledger.lastEvent + Draft.allSteps drafts } := by
  induction drafts generalizing ledger with
  | nil => simp [enterAll, Draft.records, Draft.allEvents, Draft.allSteps]
  | cons draft drafts inductionHypothesis =>
    have later := inductionHypothesis (ledger.enter now draft)
    simp only [enterAll, List.foldl_cons] at later ⊢
    rw [later]
    simp [enter, Draft.records, Draft.allEvents, Draft.allSteps, Function.comp_def, Nat.add_assoc,
      Nat.add_comm 1]

/-! ### Renumbering -/

/-- The record under another number. -/
def Record.renumber (number : Nat → Nat) (record : Record) : Record :=
  { record with id := number record.id }

/-- The event under another number, about a record under another number. -/
def Event.renumber (number numberEvent : Nat → Nat) (event : Event) : Event :=
  { event with id := numberEvent event.id, record := number event.record }

/-- Numbers are exchanged above a low and up to a high one. -/
structure Renumbers (low high : Nat) (number : Nat → Nat) : Prop where
  injective : Function.Injective number
  below : ∀ id ≤ low, number id = id
  above : ∀ id, high < id → number id = id

namespace Renumbers

variable {low high : Nat} {number other : Nat → Nat}

/-- Numbers that stay as they are are a renumbering. -/
theorem refl (low high : Nat) : Renumbers low high id :=
  ⟨Function.injective_id, fun _ _ => rfl, fun _ _ => rfl⟩

/-- Two renumberings of the same numbers, one after the other, are a renumbering. Old numbers are
fixed by both, and new ones stay new under the first. -/
theorem comp (renumbers : Renumbers low high number) (renumbers' : Renumbers low high other) :
    Renumbers low high (other ∘ number) := by
  refine ⟨renumbers'.injective.comp renumbers.injective, ?_, ?_⟩
  · intro id old
    rw [Function.comp_apply, renumbers.below id old, renumbers'.below id old]
  · intro id new
    rw [Function.comp_apply, renumbers.above id new, renumbers'.above id new]

/-- A renumbering of the numbers beyond one number is a renumbering of those beyond a smaller
number. -/
theorem lower {lower : Nat} (renumbers : Renumbers low high number) (less : lower ≤ low) :
    Renumbers lower high number :=
  ⟨renumbers.injective, fun id old => renumbers.below id (Nat.le_trans old less), renumbers.above⟩

end Renumbers

/-- Two blocks of numbers are exchanged. -/
def exchange (low first second : Nat) (id : Nat) : Nat :=
  if id ≤ low then id
  else if id ≤ low + first then id + second
  else if id ≤ low + first + second then id - first
  else id

/-- To exchange two neighbouring blocks of numbers is a renumbering: every number of either block
has one place in the other order. -/
theorem exchange_renumbers (low first second : Nat) :
    Renumbers low (low + first + second) (exchange low first second) := by
  refine ⟨?_, ?_, ?_⟩
  · intro id other same
    simp only [exchange] at same
    grind
  · intro id old
    rw [exchange, if_pos old]
  · intro id new
    simp only [exchange]
    grind

/-- A number of the first block is moved behind the second one. -/
theorem exchange_first {low first second step : Nat} (some : 0 < step) (inside : step ≤ first) :
    exchange low first second (low + step) = low + second + step := by
  rw [exchange, if_neg (by omega), if_pos (by omega)]
  omega

/-- A number of the second block is moved before the first one. -/
theorem exchange_second {low first second step : Nat} (some : 0 < step) (inside : step ≤ second) :
    exchange low first second (low + first + step) = low + step := by
  rw [exchange, if_neg (by omega), if_neg (by omega), if_pos (by omega)]
  omega

namespace Draft

variable {now : Stamp} {number numberEvent : Nat → Nat} {lastRecord lastEvent : Nat}

/-- A renumbering that leaves the numbers beyond the last record alone does not touch records that
are added later. -/
theorem records_renumber (fixed : ∀ id, lastRecord < id → number id = id) (drafts : List Draft) :
    (records now lastRecord drafts).map (Record.renumber number) = records now lastRecord drafts := by
  induction drafts generalizing lastRecord with
  | nil => rfl
  | cons draft drafts inductionHypothesis =>
    rw [records, List.map_cons, inductionHypothesis fun id new => fixed id (by omega)]
    simp [Record.renumber, record, fixed]

/-- The events of one change move together: there are one or two of them, with numbers in a row,
and the renumbering keeps the row. -/
theorem events_renumber {draft : Draft} {id last : Nat}
    (moved : ∀ step, 0 < step → step ≤ draft.steps → numberEvent (lastEvent + step) = last + step) :
    (draft.events now id lastEvent).map (Event.renumber number numberEvent) =
      draft.events now (number id) last := by
  cases written : draft.written with
  | false =>
    have first := moved 1 (by omega) (by simp [steps, written])
    simp [events, written, Event.renumber, first]
  | true =>
    have first := moved 1 (by omega) (by simp [steps, written])
    have second := moved 2 (by omega) (by simp [steps, written])
    simp [events, written, Event.renumber, first, second]

/-- A renumbering that leaves later numbers alone does not touch events that are added later. -/
theorem allEvents_renumber (fixed : ∀ id, lastRecord < id → number id = id)
    (fixedEvent : ∀ id, lastEvent < id → numberEvent id = id) (drafts : List Draft) :
    (allEvents now lastRecord lastEvent drafts).map (Event.renumber number numberEvent) =
      allEvents now lastRecord lastEvent drafts := by
  induction drafts generalizing lastRecord lastEvent with
  | nil => rfl
  | cons draft drafts inductionHypothesis =>
    rw [allEvents, List.map_append, inductionHypothesis (fun id new => fixed id (by omega))
      (fun id new => fixedEvent id (by omega)),
      events_renumber fun step some _ => fixedEvent (lastEvent + step) (by omega),
      fixed (lastRecord + 1) (by omega)]

/-- The entries of the one row, under other numbers, are those of the other one. -/
structure Renumbered (now : Stamp) (lastRecord lastEvent : Nat) (drafts others : List Draft)
    (number numberEvent : Nat → Nat) : Prop where
  numbers : Renumbers lastRecord (lastRecord + drafts.length) number
  numbersEvent : Renumbers lastEvent (lastEvent + allSteps drafts) numberEvent
  records : ((records now lastRecord drafts).map (Record.renumber number)).Perm
    (records now lastRecord others)
  events : ((allEvents now lastRecord lastEvent drafts).map
    (Event.renumber number numberEvent)).Perm (allEvents now lastRecord lastEvent others)

/-- A change in front of both rows keeps its numbers. The numbers behind it are those that the
rest is renumbered by, which leaves what is before them alone. -/
theorem Renumbered.cons {draft : Draft} {drafts others : List Draft}
    (renumbered : Renumbered now (lastRecord + 1) (lastEvent + draft.steps) drafts others number
      numberEvent) :
    Renumbered now lastRecord lastEvent (draft :: drafts) (draft :: others) number numberEvent := by
  obtain ⟨numbers, numbersEvent, records, events⟩ := renumbered
  refine ⟨?_, ?_, ?_, ?_⟩
  · have lower := numbers.lower (Nat.le_add_right lastRecord 1)
    rwa [Nat.add_assoc, Nat.add_comm 1] at lower
  · have lower := numbersEvent.lower (Nat.le_add_right lastEvent draft.steps)
    rwa [Nat.add_assoc] at lower
  · have same : (draft.record now (lastRecord + 1)).renumber number =
        draft.record now (lastRecord + 1) := by
      simp [Record.renumber, record, numbers.below]
    rw [Draft.records, List.map_cons, same]
    exact records.cons _
  · have same : (draft.events now (lastRecord + 1) lastEvent).map
        (Event.renumber number numberEvent) = draft.events now (lastRecord + 1) lastEvent := by
      rw [events_renumber fun step _ bound => numbersEvent.below (lastEvent + step) (by omega),
        numbers.below _ (Nat.le_refl _)]
    rw [allEvents, List.map_append, same]
    exact events.append_left _

/-- Two changes in front of the same row exchange their numbers: each takes a block of them, and
the blocks stand in the other order. What follows is numbered from the same place on. -/
theorem Renumbered.swap (now : Stamp) (lastRecord lastEvent : Nat) (first second : Draft)
    (drafts : List Draft) :
    Renumbered now lastRecord lastEvent (first :: second :: drafts) (second :: first :: drafts)
      (exchange lastRecord 1 1) (exchange lastEvent first.steps second.steps) := by
  have numbers := exchange_renumbers lastRecord 1 1
  have numbersEvent := exchange_renumbers lastEvent first.steps second.steps
  have fixed : ∀ id, lastRecord + 1 + 1 < id → exchange lastRecord 1 1 id = id := numbers.above
  have forth : exchange lastRecord 1 1 (lastRecord + 1) = lastRecord + 1 + 1 :=
    exchange_first (by omega) (by omega)
  have back : exchange lastRecord 1 1 (lastRecord + 1 + 1) = lastRecord + 1 :=
    exchange_second (by omega) (by omega)
  refine ⟨?_, ?_, ?_, ?_⟩
  · refine ⟨numbers.injective, numbers.below, fun id new => numbers.above id ?_⟩
    simp only [List.length_cons] at new
    omega
  · refine ⟨numbersEvent.injective, numbersEvent.below, fun id new => numbersEvent.above id ?_⟩
    simp only [allSteps, List.map_cons, List.sum_cons] at new
    omega
  · simp only [Draft.records, List.map_cons, records_renumber fixed]
    simp only [Record.renumber, record, forth, back]
    exact .swap _ _ _
  · simp only [allEvents, List.map_append]
    rw [allEvents_renumber fixed numbersEvent.above, events_renumber fun step => exchange_first,
      events_renumber fun step => exchange_second, forth, back,
      Nat.add_right_comm lastEvent second.steps, ← List.append_assoc, ← List.append_assoc]
    exact List.perm_append_comm.append_right _

/-- Renumberings of drafts compose, as long as both lists of drafts take as many numbers of
records and of events. -/
theorem Renumbered.trans {drafts others last : List Draft} {number' numberEvent' : Nat → Nat}
    (first : Renumbered now lastRecord lastEvent drafts others number numberEvent)
    (second : Renumbered now lastRecord lastEvent others last number' numberEvent')
    (length : others.length = drafts.length) (steps : allSteps others = allSteps drafts) :
    Renumbered now lastRecord lastEvent drafts last (number' ∘ number)
      (numberEvent' ∘ numberEvent) := by
  obtain ⟨numbers, numbersEvent, records, events⟩ := second
  rw [length] at numbers
  rw [steps] at numbersEvent
  refine ⟨first.numbers.comp numbers, first.numbersEvent.comp numbersEvent, ?_, ?_⟩
  · have both := (first.records.map (Record.renumber number')).trans records
    rwa [List.map_map] at both
  · have both := (first.events.map (Event.renumber number' numberEvent')).trans events
    rwa [List.map_map] at both

/-- The number of steps of several drafts does not depend on their order. -/
theorem allSteps_perm {drafts others : List Draft} (perm : drafts.Perm others) :
    allSteps drafts = allSteps others :=
  (perm.map steps).sum_nat

/-- Changes in another order make the same entries under other numbers. The induction is over the
ways in which a list is put into another order, and only neighbours change places. -/
theorem exists_renumbered {drafts others : List Draft} (perm : drafts.Perm others) (now : Stamp)
    (lastRecord lastEvent : Nat) :
    ∃ number numberEvent,
      Renumbered now lastRecord lastEvent drafts others number numberEvent := by
  induction perm generalizing lastRecord lastEvent with
  | nil => exact ⟨id, id, .refl _ _, .refl _ _, .nil, .nil⟩
  | cons draft _ inductionHypothesis =>
    obtain ⟨number, numberEvent, renumbered⟩ :=
      inductionHypothesis (lastRecord + 1) (lastEvent + draft.steps)
    exact ⟨number, numberEvent, renumbered.cons⟩
  -- Two neighbours exchange their numbers, and as many events as each of them has.
  | swap second first drafts => exact ⟨_, _, .swap now lastRecord lastEvent first second drafts⟩
  | trans perm _ inductionHypothesis inductionHypothesis' =>
    obtain ⟨number, numberEvent, renumbered⟩ := inductionHypothesis lastRecord lastEvent
    obtain ⟨number', numberEvent', renumbered'⟩ := inductionHypothesis' lastRecord lastEvent
    exact ⟨_, _, renumbered.trans renumbered' perm.length_eq.symm (allSteps_perm perm).symm⟩

end Draft

/-- Two ledgers that have grown from the same one are equal up to the numbers of what is
new in them. -/
structure Ledger.EqualUpToNumbers (start first second : Ledger) (number numberEvent : Nat → Nat) :
    Prop where
  numbers : Renumbers start.lastRecord first.lastRecord number
  numbersEvent : Renumbers start.lastEvent first.lastEvent numberEvent
  records : ∃ new new', first.records = start.records ++ new ∧
    second.records = start.records ++ new' ∧ (new.map (Record.renumber number)).Perm new'
  events : ∃ old new new', start.events = some old ∧ first.events = some (old ++ new) ∧
    second.events = some (old ++ new') ∧ (new.map (Event.renumber number numberEvent)).Perm new'
  lastRecord : second.lastRecord = first.lastRecord
  lastEvent : second.lastEvent = first.lastEvent

/-- Entries in another order give the same ledger up to numbers: a permutation is made of
exchanges of neighbours, and each of those exchanges two blocks of numbers. -/
theorem Ledger.Orderly.enterAll_perm {ledger : Ledger} (orderly : ledger.Orderly) (now : Stamp)
    {drafts others : List Draft} (perm : drafts.Perm others) :
    ∃ number numberEvent, ledger.EqualUpToNumbers (ledger.enterAll now drafts)
      (ledger.enterAll now others) number numberEvent := by
  obtain ⟨events, noted⟩ := orderly.noted
  obtain ⟨number, numberEvent, renumbered⟩ :=
    Draft.exists_renumbered perm now ledger.lastRecord ledger.lastEvent
  refine ⟨number, numberEvent, ?_⟩
  simp only [Ledger.enterAll_eq, noted, Option.map_some]
  refine ⟨renumbered.numbers, renumbered.numbersEvent, ⟨_, _, rfl, rfl, renumbered.records⟩,
    ⟨events, _, _, noted, rfl, rfl, renumbered.events⟩, ?_, ?_⟩
  · simp only [perm.length_eq]
  · simp only [Draft.allSteps_perm perm]

end SqlRenewal
