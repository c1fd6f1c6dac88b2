import SqlRenewal.Proofs.Ledger.Stack

/-!
# Records and their events

Records and events are kept in two tables, and every step of a record writes to both.
A ledger is coherent if the two tell the same story: the events of a record, in the
order of their numbers, are the steps that lead to its status, noted at the times
that the record itself holds, and no event is about a record that is not there.

Backups, steps of a record and the removal of everything keep a ledger coherent, and
so does a step that is given up, even if the numbers that it drew are lost.
-/
namespace SqlRenewal

/-- The steps that lead to a status: where each of them comes from, and where it goes. -/
def Status.path : Status → List (Option Status × Status)
  | .backedUp => [(none, .backedUp)]
  | .updated => [(none, .backedUp), (some .backedUp, .updated)]
  | .rolledBack => [(none, .backedUp), (some .backedUp, .updated), (some .updated, .rolledBack)]

/-- The times of the steps that a record has taken. -/
def Record.times (record : Record) : List Stamp :=
  record.createdAt :: (record.stage.updatedAt.toList ++ record.stage.rolledBackAt.toList)

/-- The events are the steps of the record, at the times that it holds. -/
structure Record.ToldBy (record : Record) (events : List Event) : Prop where
  path : events.map (fun event => (event.source, event.target)) = record.status.path
  times : events.map Event.stamp = record.times

/-- The two steps that a record can take: from a backup to a committed change, and from there to
one that is taken back. Every other step is refused. -/
theorem Stage.step?_cases {stage next : Stage} {now : Stamp} {target : Status}
    (stepped : stage.step? now target = some next) :
    (stage = .backedUp ∧ target = .updated ∧ next = .updated now) ∨
      ∃ stamp, stage = .updated stamp ∧ target = .rolledBack ∧ next = .rolledBack stamp now := by
  cases stage with
  | backedUp =>
    simp only [Stage.step?, Option.ite_none_right_eq_some, Option.some.injEq] at stepped
    exact .inl ⟨rfl, stepped.1, stepped.2.symm⟩
  | updated stamp =>
    simp only [Stage.step?, Option.ite_none_right_eq_some, Option.some.injEq] at stepped
    exact .inr ⟨stamp, rfl, stepped.1, stepped.2.symm⟩
  | rolledBack updatedAt rolledBackAt => cases stepped

/-- A record can take the step to the status that follows its own, and no other one. -/
theorem Stage.exists_step?_iff {stage : Stage} {now : Stamp} {target : Status} :
    (∃ next, stage.step? now target = some next) ↔ stage.status.next? = some target := by
  rw [← Option.isSome_iff_exists]
  cases stage <;> cases target <;> simp [Stage.step?, Stage.status, Status.next?]

/-- The event of a step continues the story of its record: it names the status that the record had
and the one that it gets, at the time that the record notes. -/
theorem Record.ToldBy.step {record : Record} {events : List Event} (told : record.ToldBy events)
    {now : Stamp} {target : Status} {stage : Stage}
    (next : record.stage.step? now target = some stage) (id : Nat) :
    Record.ToldBy { record with stage }
      (events ++ [⟨id, record.id, some record.status, target, now⟩]) := by
  obtain ⟨path, times⟩ := told
  constructor
  · rw [List.map_append, path]
    obtain ⟨current, rfl, rfl⟩ | ⟨stamp, current, rfl, rfl⟩ := Stage.step?_cases next
    · simp [Record.status, current, Stage.status, Status.path]
    · simp [Record.status, current, Stage.status, Status.path]
  · rw [List.map_append, times]
    obtain ⟨current, rfl, rfl⟩ | ⟨stamp, current, rfl, rfl⟩ := Stage.step?_cases next
    · simp [Record.times, current, Stage.updatedAt, Stage.rolledBackAt]
    · simp [Record.times, current, Stage.updatedAt, Stage.rolledBackAt]

/-- The records and the events tell the same story, and their numbers grow. -/
structure Chronicle (records : List Record) (lastRecord : Nat) (events : List Event)
    (lastEvent : Nat) : Prop where
  increasing : records.Pairwise fun older newer => older.id < newer.id
  bounded : ∀ record ∈ records, record.id ≤ lastRecord
  ordered : events.Pairwise fun earlier later => earlier.id < later.id
  noted : ∀ event ∈ events, event.id ≤ lastEvent
  told : ∀ record ∈ records, record.ToldBy (events.filter fun event => event.record == record.id)
  owned : ∀ event ∈ events, ∃ record ∈ records, record.id = event.record

/-- The table of events is there and agrees with the records. -/
def Ledger.Coherent (ledger : Ledger) : Prop :=
  ∃ events, ledger.events = some events ∧
    Chronicle ledger.records ledger.lastRecord events ledger.lastEvent

namespace Ledger

variable {ledger after : Ledger}

/-- A coherent ledger has a table of events, and its numbers grow; that is all that the stacks of
records need. -/
theorem Coherent.orderly (coherent : ledger.Coherent) : ledger.Orderly := by
  obtain ⟨events, noted, chronicle⟩ := coherent
  exact ⟨⟨events, noted⟩, chronicle.increasing, chronicle.bounded⟩

/-- A ledger without records and events is coherent, as nothing has to be told. -/
theorem coherent_empty : ({} : Ledger).Coherent :=
  ⟨[], rfl, .nil, by simp, .nil, by simp, by simp, by simp⟩

/-- Numbers that are lost are beyond all that records and events have. The counters only grew, so
whatever they bounded they still bound. -/
theorem Coherent.idles (coherent : ledger.Coherent) (idles : ledger.Idles after) :
    after.Coherent := by
  obtain ⟨events, noted, chronicle⟩ := coherent
  refine ⟨events, idles.events.trans noted, ?_⟩
  rw [idles.records]
  exact { chronicle with
    bounded := fun record member => Nat.le_trans (chronicle.bounded record member) idles.lastRecord
    noted := fun event member => Nat.le_trans (chronicle.noted event member) idles.lastEvent }

/-- Numbers that grow go on growing with the next one, for it is above a bound of all others. -/
theorem pairwise_concat {α : Type} {number : α → Nat} {items : List α} {item : α} {last : Nat}
    (increasing : items.Pairwise fun first second => number first < number second)
    (bounded : ∀ other ∈ items, number other ≤ last) (next : number item = last + 1) :
    (items ++ [item]).Pairwise fun first second => number first < number second := by
  rw [List.pairwise_append]
  refine ⟨increasing, List.pairwise_singleton _ _, ?_⟩
  intro other member final same
  rw [List.mem_singleton.mp same, next]
  exact Nat.lt_succ_of_le (bounded other member)

/-- An event about another record leaves the story of a record as it is. -/
theorem filter_concat_of_ne {events : List Event} {event : Event} {record : Record}
    (other : event.record ≠ record.id) :
    (events ++ [event]).filter (fun event => event.record == record.id) =
      events.filter fun event => event.record == record.id := by
  simp [other]

/-- A backup adds its record and an event about it. Both get numbers beyond all others, so nothing
that is told about the older records is touched, and the new record is told by its own event
alone. -/
theorem Coherent.append (coherent : ledger.Coherent) {now : Stamp} {identity : Identity}
    {before : Text} {text : Option Text} {record : Record}
    (appended : ledger.append now identity before text = (after, some record)) :
    after.Coherent := by
  obtain ⟨events, noted, chronicle⟩ := coherent
  simp only [Ledger.append, noted, Prod.mk.injEq, Option.some.injEq] at appended
  obtain ⟨rfl, rfl⟩ := appended
  refine ⟨_, rfl, ?_⟩
  -- No event can be about the new record yet, because its number is beyond all others.
  have fresh : ∀ event ∈ events, event.record ≠ ledger.lastRecord + 1 := by
    intro event member same
    obtain ⟨owner, listed, owns⟩ := chronicle.owned event member
    have bound := chronicle.bounded owner listed
    omega
  refine ⟨pairwise_concat chronicle.increasing chronicle.bounded rfl, ?_,
    pairwise_concat chronicle.ordered chronicle.noted rfl, ?_, ?_, ?_⟩
  · intro other member
    cases List.mem_append.mp member with
    | inl listed => exact Nat.le_succ_of_le (chronicle.bounded other listed)
    | inr last => exact Nat.le_of_eq (congrArg Record.id (List.mem_singleton.mp last))
  · intro event member
    cases List.mem_append.mp member with
    | inl listed => exact Nat.le_succ_of_le (chronicle.noted event listed)
    | inr last => exact Nat.le_of_eq (congrArg Event.id (List.mem_singleton.mp last))
  · intro other member
    cases List.mem_append.mp member with
    | inl listed =>
      have bound := chronicle.bounded other listed
      rw [filter_concat_of_ne (Nat.ne_of_gt (Nat.lt_succ_of_le bound))]
      exact chronicle.told other listed
    | inr last =>
      rw [List.mem_singleton.mp last]
      have none : events.filter (fun event => event.record == ledger.lastRecord + 1) = [] := by
        rw [List.filter_eq_nil_iff]
        intro event listed
        simpa using fresh event listed
      rw [nextRecord, List.filter_append, none]
      constructor <;> simp [Record.status, Record.times, Stage.status, Status.path,
        Stage.updatedAt, Stage.rolledBackAt]
  · intro event member
    cases List.mem_append.mp member with
    | inl listed =>
      obtain ⟨owner, found, owns⟩ := chronicle.owned event listed
      exact ⟨owner, List.mem_append_left _ found, owns⟩
    | inr last =>
      rw [List.mem_singleton.mp last]
      exact ⟨_, List.mem_append_right _ (List.mem_singleton_self _), rfl⟩

/-- A step of a record, with the parts of the ledger around it. -/
structure Advances (ledger after : Ledger) (now : Stamp) (target : Status)
    (front : List Record) (record : Record) (stage : Stage) (rest : List Record) : Prop where
  next : record.stage.step? now target = some stage
  before : ledger.records = front ++ record :: rest
  records : after.records = front ++ { record with stage } :: rest
  events : ∃ events, ledger.events = some events ∧ after.events =
    some (events ++ [⟨ledger.lastEvent + 1, record.id, some record.status, target, now⟩])
  lastRecord : after.lastRecord = ledger.lastRecord
  lastEvent : after.lastEvent = ledger.lastEvent + 1

/-- A step that is taken is the next one of a record of the ledger. The record is found by its
number, which no other record has, so it is changed where it stands. -/
theorem Orderly.advance_eq_ok (orderly : ledger.Orderly) {now : Stamp} {id : Int} {target : Status}
    {advanced : Record} (stepped : ledger.advance now id target = .ok (after, advanced)) :
    ∃ front record stage rest, ledger.Advances after now target front record stage rest ∧
      (record.id : Int) = id ∧ advanced = { record with stage } := by
  cases found : ledger.find? id with
  | none => simp [Ledger.advance, found] at stepped
  | some record =>
    have number : (record.id : Int) = id := by simpa using List.find?_some found
    obtain ⟨front, rest, split⟩ := List.append_of_mem (List.mem_of_find?_eq_some found)
    obtain ⟨events, noted⟩ := orderly.noted
    cases next : record.stage.step? now target with
    | none => simp [Ledger.advance, found, next] at stepped
    | some stage =>
      simp only [Ledger.advance, found, next, noted, Except.ok.injEq, Prod.mk.injEq] at stepped
      obtain ⟨rfl, rfl⟩ := stepped
      have place : Ledger.replaceRecord { record with stage } ledger.records =
          front ++ { record with stage } :: rest := orderly.replaceRecord split rfl
      exact ⟨front, record, stage, rest, ⟨next, split, place, ⟨events, noted, rfl⟩, rfl, rfl⟩,
        number, rfl⟩

/-- A record with a next step takes it, and no other record does: in an orderly ledger a number
finds its record, and the table of events is there to note the step. -/
theorem Orderly.exists_advance_iff (orderly : ledger.Orderly) (now : Stamp) {id : Int}
    {target : Status} :
    (∃ ending, ledger.advance now id target = .ok ending) ↔
      ∃ record ∈ ledger.records, (record.id : Int) = id ∧ record.status.next? = some target := by
  constructor
  · rintro ⟨⟨after, advanced⟩, stepped⟩
    obtain ⟨front, record, stage, rest, advances, number, _⟩ := orderly.advance_eq_ok stepped
    refine ⟨record, by simp [advances.before], number, ?_⟩
    exact Stage.exists_step?_iff.mp ⟨stage, advances.next⟩
  · rintro ⟨record, member, rfl, follows⟩
    obtain ⟨front, rest, split⟩ := List.append_of_mem member
    obtain ⟨stage, next⟩ := Stage.exists_step?_iff.mpr follows
    obtain ⟨advanced, stepped, _⟩ := orderly.advance split next
    exact ⟨_, stepped⟩

/-- A step changes one record and adds an event about it. The event goes on with the story of that
record, and all others are about other numbers. -/
theorem Coherent.advances (coherent : ledger.Coherent) {now : Stamp} {target : Status}
    {front rest : List Record} {record : Record} {stage : Stage}
    (advances : ledger.Advances after now target front record stage rest) :
    after.Coherent := by
  have apart := coherent.orderly.apart advances.before
  obtain ⟨events, noted, chronicle⟩ := coherent
  obtain ⟨next, before, records, ⟨_, same, written⟩, lastRecord, lastEvent⟩ := advances
  obtain rfl := Option.some.inj (noted.symm.trans same)
  refine ⟨_, written, ?_⟩
  obtain ⟨increasing, bounded, ordered, numbered, told, owned⟩ := chronicle
  rw [before] at increasing bounded told owned
  rw [records, lastRecord, lastEvent]
  -- The record keeps its number, so each fact about numbers carries over to the place of the step.
  have placed {other : Record} (member : other ∈ front ++ { record with stage } :: rest) :
      other = { record with stage } ∨ other ∈ front ++ rest := by
    simp only [List.mem_append, List.mem_cons] at member ⊢
    grind
  have kept {other : Record} (member : other ∈ front ++ rest) : other ∈ front ++ record :: rest := by
    simp only [List.mem_append, List.mem_cons] at member ⊢
    grind
  refine ⟨?_, ?_, pairwise_concat ordered numbered rfl, ?_, ?_, ?_⟩
  · simpa [List.pairwise_append, List.pairwise_cons] using increasing
  · intro other member
    obtain rfl | listed := placed member
    · exact bounded record (by simp)
    · exact bounded other (kept listed)
  · intro event member
    cases List.mem_append.mp member with
    | inl listed => exact Nat.le_succ_of_le (numbered event listed)
    | inr last => exact Nat.le_of_eq (congrArg Event.id (List.mem_singleton.mp last))
  · intro other member
    obtain rfl | listed := placed member
    · have continued := (told record (by simp)).step next (ledger.lastEvent + 1)
      simpa using continued
    · rw [filter_concat_of_ne (apart other listed).symm]
      exact told other (kept listed)
  · intro event member
    have numbers : (front ++ record :: rest).map Record.id =
        (front ++ { record with stage } :: rest).map Record.id := by simp
    have owners {id : Nat} (found : ∃ owner ∈ front ++ record :: rest, owner.id = id) :
        ∃ owner ∈ front ++ { record with stage } :: rest, owner.id = id := by
      rw [← List.mem_map] at found ⊢
      rwa [← numbers]
    cases List.mem_append.mp member with
    | inl listed => exact owners (owned event listed)
    | inr last =>
      rw [List.mem_singleton.mp last]
      exact owners ⟨record, by simp, rfl⟩

/-- Without records there is nothing to tell, and without events nothing is told. -/
theorem Coherent.clear (coherent : ledger.Coherent) (cleared : ledger.clear? = some after) :
    after.Coherent := by
  obtain ⟨events, noted, chronicle⟩ := coherent
  simp only [clear?, noted, Option.map_some, Option.some.injEq] at cleared
  subst cleared
  exact ⟨[], rfl, .nil, by simp, .nil, by simp, by simp, by simp⟩

end Ledger

end SqlRenewal
