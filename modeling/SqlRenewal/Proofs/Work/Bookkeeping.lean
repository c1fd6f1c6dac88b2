import SqlRenewal.Store.Opening
import SqlRenewal.Proofs.Ledger.Chronicle
import SqlRenewal.Proofs.Work.Perform

/-!
# Keeping the ledger

Backups are made, marked and removed one after the other, and in between the file of
the ledger is closed and opened again. Any of this may be refused, and the storage may
break down in the middle of it. Whatever happens in whatever order, no number is given
twice, the events tell the story of the records, and what a record was made with stays.

Two things are taken for granted about the storage, both in what it means to undo a
transaction: the tables are as they were, and the numbers that were drawn are never
drawn again. A ledger that no file keeps is not opened again; the next one is new.
-/
namespace SqlRenewal

/-! ### Requests -/

/-- What is asked of the ledger. -/
inductive LedgerTask where
  | append (identity : Identity) (before : Text) (after : Option Text)
  | commit (id : Int)
  | takeBack (id : Int)
  | clear (confirmed : Bool)
  | reopen

/-- What the ledger answers. -/
inductive LedgerAnswer where
  | backedUp (record : Record)
  | advanced (record : Record)
  | purged (removed : Nat)
  | reopened

/-- The operation that a task asks for, in which the storage may break down. To open the file
again is to write to it, and can fail as a transaction without writes does. -/
def LedgerTask.action (breakdown : Option Breakdown) : LedgerTask → Action LedgerAnswer
  | .append identity before after => .backedUp <$> backUp identity before after breakdown
  | .commit id => .advanced <$> markUpdated id breakdown
  | .takeBack id => .advanced <$> markRolledBack id breakdown
  | .clear confirmed => .purged <$> purgeBy (removeRecords breakdown) confirmed
  | .reopen => do
    transaction .storage [] breakdown
    modify (Desk.reopen true)
    return .reopened

/-- The record that a task marks, and the status that it takes the record to. -/
def LedgerTask.mark? : LedgerTask → Option (Int × Status)
  | .commit id => some (id, .updated)
  | .takeBack id => some (id, .rolledBack)
  | _ => none

/-- How the storage fares during a task. -/
inductive Storage where
  | working
  /-- Backups and marks are refused before they begin. -/
  | refusing
  | failing (breakdown : Breakdown)

/-- What is refused before it begins. -/
def Storage.outage : Storage → Outage
  | .refusing => { backups := true, updates := true }
  | _ => {}

/-- Where a transaction is given up. -/
def Storage.breakdown : Storage → Option Breakdown
  | .failing breakdown => some breakdown
  | _ => none

/-- A task with the time and the state of the storage in which it is worked on. -/
structure Request where
  now : Stamp
  storage : Storage
  task : LedgerTask

/-- What comes of a request. -/
def Request.answer (request : Request) (desk : Desk) : Except Failure LedgerAnswer × Desk :=
  (request.task.action request.storage.breakdown).perform
    { desk with now := request.now, outage := request.storage.outage }

/-- The desk after requests. -/
def Desk.serve (desk : Desk) (requests : List Request) : Desk :=
  requests.foldl (fun desk request => (request.answer desk).2) desk

/-- The record that an answer brings, if it is one to a backup. -/
def recordMade : Except Failure LedgerAnswer → List Record
  | .ok (.backedUp record) => [record]
  | _ => []

/-- The records that requests make, in their order. -/
def Desk.recordsMade (desk : Desk) : List Request → List Record
  | [] => []
  | request :: later =>
    recordMade (request.answer desk).1 ++ (request.answer desk).2.recordsMade later

/-! ### What a request does -/

/-- What a request can make of a ledger. -/
inductive Ledger.Turns (ledger : Ledger) : Except Failure LedgerAnswer → Ledger → Prop where
  | backedUp {after : Ledger} {now : Stamp} {identity : Identity} {before : Text}
      {text : Option Text} {record : Record}
      (appended : ledger.append now identity before text = (after, some record)) :
      ledger.Turns (.ok (.backedUp record)) after
  | advanced {after : Ledger} {now : Stamp} {id : Int} {target : Status} {record : Record}
      (stepped : ledger.advance now id target = .ok (after, record)) :
      ledger.Turns (.ok (.advanced record)) after
  | purged {after : Ledger} {removed : Nat} (cleared : ledger.clear? = some after) :
      ledger.Turns (.ok (.purged removed)) after
  | reopened {after : Ledger} (idles : ledger.Idles after) : ledger.Turns (.ok .reopened) after
  | refused {after : Ledger} {failure : Failure} (idles : ledger.Idles after) :
      ledger.Turns (.error failure) after

/-- What fails without a trace in the tables is one of the things that can happen. -/
theorem Action.FailsIdly.turns {action : Action LedgerAnswer} {desk : Desk}
    (fails : action.FailsIdly desk) :
    desk.ledger.Turns (action.perform desk).1 (action.perform desk).2.ledger := by
  obtain ⟨failure, ledger, stopped, idles⟩ := fails
  rw [stopped]
  exact .refused idles

/-- A backup without its event has used up a number, and nothing else. This happens only where
there is no table of events. -/
theorem Ledger.append_eq_none {ledger after : Ledger} {now : Stamp} {identity : Identity}
    {before : Text} {text : Option Text}
    (unnoted : ledger.append now identity before text = (after, none)) : ledger.Idles after := by
  cases noted : ledger.events with
  | none =>
    simp only [Ledger.append, noted, Prod.mk.injEq, and_true] at unnoted
    subst unnoted
    exact ⟨rfl, noted.symm, Nat.le_succ _, Nat.le_refl _⟩
  | some events => simp [Ledger.append, noted] at unnoted

/-- A backup while the storage works is one of the things that can happen: refused, unnoted, or
made. -/
theorem append_turns (identity : Identity) (before : Text) (after : Option Text) (desk : Desk) :
    let ending := ((LedgerTask.append identity before after).action none).perform desk
    desk.ledger.Turns ending.1 ending.2.ledger := by
  have performed := perform_backUp identity before after desk
  split at performed
  · rw [LedgerTask.action, Action.perform_map_error performed]
    exact .refused (.refl _)
  · split at performed
    · rename_i ledger unnoted
      rw [LedgerTask.action, Action.perform_map_error performed]
      exact .refused (Ledger.append_eq_none unnoted)
    · rename_i ledger record appended
      rw [LedgerTask.action, Action.perform_map_ok performed]
      exact .backedUp appended

/-- So is a step of a record, which is taken or changes nothing. A refused one leaves the desk
itself as it was. -/
theorem advanceRecord_turns (id : Int) (target : Status) (desk : Desk) :
    let ending := (LedgerAnswer.advanced <$> advanceRecord id target).perform desk
    desk.ledger.Turns ending.1 ending.2.ledger := by
  cases stepped : desk.ledger.advance desk.now id target with
  | ok ending =>
    rw [Action.perform_map_ok (perform_advanceRecord_ok stepped)]
    exact .advanced stepped
  | error fault =>
    obtain ⟨failure, refused⟩ := perform_advanceRecord_error stepped
    rw [Action.perform_map_error refused]
    exact .refused (.refl _)

/-- While marks are not refused, a task that marks a record is a step of that record. -/
theorem LedgerTask.perform_mark {task : LedgerTask} {id : Int} {target : Status}
    (mark : task.mark? = some (id, target)) {desk : Desk} (allowed : desk.outage.updates = false) :
    (task.action none).perform desk =
      (LedgerAnswer.advanced <$> advanceRecord id target).perform desk := by
  cases task with
  | commit number =>
    cases mark
    rw [LedgerTask.action, ← bind_pure_comp, ← bind_pure_comp, Action.perform_bind,
      Action.perform_bind, perform_markUpdated allowed]
  | takeBack number =>
    cases mark
    rfl
  | append identity before after => cases mark
  | clear confirmed => cases mark
  | reopen => cases mark

/-- So is a removal, which empties both tables or none of them. Without consent or without a table
of events it is refused. -/
theorem clear_turns (confirmed : Bool) (desk : Desk) :
    let ending := ((LedgerTask.clear confirmed).action none).perform desk
    desk.ledger.Turns ending.1 ending.2.ledger := by
  cases confirmed with
  | false => exact .refused (.refl _)
  | true =>
    have action : (LedgerTask.clear true).action none = LedgerAnswer.purged <$> purge true := rfl
    rw [action]
    cases cleared : desk.ledger.clear? with
    | none =>
      rw [Action.perform_map_error (perform_purge_refused cleared)]
      exact .refused (.refl _)
    | some ledger =>
      obtain ⟨lines, performed⟩ := perform_purge cleared
      rw [Action.perform_map_ok performed]
      exact .purged cleared

/-- Opened again, a ledger with a table of events is the one that was closed. -/
theorem reopen_turns {desk : Desk} {events : List Event} (noted : desk.ledger.events = some events) :
    let ending := (LedgerTask.reopen.action none).perform desk
    desk.ledger.Turns ending.1 ending.2.ledger := by
  have opened : (LedgerTask.reopen.action none).perform desk =
      (.ok .reopened, desk.reopen true) := rfl
  have unchanged : (desk.reopen true).ledger.events = desk.ledger.events := by
    simp [Desk.reopen, Desk.restore, Ledger.restore, noted]
  rw [opened]
  exact .reopened ⟨rfl, unchanged, Nat.le_refl _, Nat.le_refl _⟩

/-- A task does one of the things that a ledger can go through. Opened again, a ledger without
a table of events would get one. -/
theorem LedgerTask.turns (task : LedgerTask) (desk : Desk) {events : List Event}
    (noted : desk.ledger.events = some events) :
    let ending := (task.action none).perform desk
    desk.ledger.Turns ending.1 ending.2.ledger := by
  cases task with
  | append identity before after => exact append_turns identity before after desk
  | commit id =>
    cases refusing : desk.outage.updates with
    | true =>
      rw [LedgerTask.action, Action.perform_map_error (perform_markUpdated_refused refusing id none)]
      exact .refused (.refl _)
    | false =>
      rw [LedgerTask.perform_mark rfl refusing]
      exact advanceRecord_turns id .updated desk
  | takeBack id => exact advanceRecord_turns id .rolledBack desk
  | clear confirmed => exact clear_turns confirmed desk
  | reopen => exact reopen_turns noted

/-- No task succeeds while the storage breaks down, and none leaves a trace in the tables: each is
one transaction at most. -/
theorem LedgerTask.failsIdly (task : LedgerTask) (breakdown : Breakdown) (desk : Desk) :
    (task.action (some breakdown)).FailsIdly desk := by
  cases task with
  | append identity before after => exact (failsIdly_backUp _ _ _ breakdown desk).map _
  | commit id => exact (failsIdly_markUpdated id breakdown desk).map _
  | takeBack id => exact (failsIdly_advanceRecord id .rolledBack breakdown desk).map _
  | clear confirmed => exact (failsIdly_purge confirmed breakdown desk).map _
  | reopen => exact (failsIdly_transaction_some .storage [] breakdown desk).bind _

/-- A request does one of the things that a ledger can go through, however the storage
fares. -/
theorem Request.turns (request : Request) {desk : Desk} {events : List Event}
    (noted : desk.ledger.events = some events) :
    desk.ledger.Turns (request.answer desk).1 (request.answer desk).2.ledger := by
  obtain ⟨now, storage, task⟩ := request
  cases storage with
  | working => exact task.turns { desk with now, outage := Storage.working.outage } noted
  | refusing => exact task.turns { desk with now, outage := Storage.refusing.outage } noted
  | failing breakdown =>
    exact (task.failsIdly breakdown { desk with now, outage := {} }).turns

/-- Whatever a request makes of a coherent ledger is coherent, by the cases of what it can
make. -/
theorem Ledger.Coherent.turns {ledger after : Ledger} {result : Except Failure LedgerAnswer}
    (coherent : ledger.Coherent) (turns : ledger.Turns result after) : after.Coherent := by
  cases turns with
  | backedUp appended => exact coherent.append appended
  | advanced stepped =>
    obtain ⟨front, record, stage, rest, advances, _⟩ := coherent.orderly.advance_eq_ok stepped
    exact coherent.advances advances
  | purged cleared => exact coherent.clear cleared
  | reopened idles => exact coherent.idles idles
  | refused idles => exact coherent.idles idles

/-! ### What records were made with -/

/-- The record is the first one, at another stage. -/
def Record.Continues (record first : Record) : Prop :=
  record = { first with stage := record.stage }

/-- The records that were made have growing numbers, up to the last one given, and every
record of the ledger is one of them. -/
structure Ledger.Keeps (ledger : Ledger) (made : List Record) : Prop where
  increasing : made.Pairwise fun older newer => older.id < newer.id
  bounded : ∀ first ∈ made, first.id ≤ ledger.lastRecord
  stems : ∀ record ∈ ledger.records, ∃ first ∈ made, record.Continues first

/-- Where only numbers are lost, the records are those that were made, and numbers are lost
upwards. -/
theorem Ledger.Keeps.idles {ledger after : Ledger} {made : List Record} (keeps : ledger.Keeps made)
    (idles : ledger.Idles after) : after.Keeps made := by
  refine ⟨keeps.increasing, ?_, ?_⟩
  · intro first member
    exact Nat.le_trans (keeps.bounded first member) idles.lastRecord
  · rw [idles.records]
    exact keeps.stems

/-- A new record is the last one that was made, with a number beyond all others. -/
theorem Ledger.Keeps.append {ledger after : Ledger} {made : List Record} (keeps : ledger.Keeps made)
    {now : Stamp} {identity : Identity} {before : Text} {text : Option Text} {record : Record}
    (appended : ledger.append now identity before text = (after, some record)) :
    after.Keeps (made ++ [record]) := by
  cases noted : ledger.events with
  | none => simp [Ledger.append, noted] at appended
  | some events =>
    simp only [Ledger.append, noted, Prod.mk.injEq, Option.some.injEq] at appended
    obtain ⟨rfl, rfl⟩ := appended
    refine ⟨Ledger.pairwise_concat keeps.increasing keeps.bounded rfl, ?_, ?_⟩
    · intro first member
      cases List.mem_append.mp member with
      | inl earlier => exact Nat.le_succ_of_le (keeps.bounded first earlier)
      | inr last => exact Nat.le_of_eq (congrArg Record.id (List.mem_singleton.mp last))
    · intro other member
      cases List.mem_append.mp member with
      | inl listed =>
        obtain ⟨first, earlier, continues⟩ := keeps.stems other listed
        exact ⟨first, List.mem_append_left _ earlier, continues⟩
      | inr last => exact ⟨other, List.mem_append_right _ last, rfl⟩

/-- A record that takes a step goes on from the same first record: only its stage is another
one. -/
theorem Ledger.Keeps.advances {ledger after : Ledger} {made : List Record}
    (keeps : ledger.Keeps made) {now : Stamp} {target : Status} {front rest : List Record}
    {record : Record} {stage : Stage}
    (advances : ledger.Advances after now target front record stage rest) :
    after.Keeps made := by
  obtain ⟨increasing, bounded, stems⟩ := keeps
  rw [advances.before] at stems
  refine ⟨increasing, by rwa [advances.lastRecord], ?_⟩
  rw [advances.records]
  intro other member
  simp only [List.mem_append, List.mem_cons] at member
  obtain inFront | rfl | inRest := member
  · exact stems other (by simp [inFront])
  · obtain ⟨first, earlier, continues⟩ := stems record (by simp)
    refine ⟨first, earlier, ?_⟩
    rw [Record.Continues] at continues ⊢
    rw [continues]
  · exact stems other (by simp [inRest])

/-- A ledger without records has none that was not made, and keeps the last number. -/
theorem Ledger.Keeps.clear {ledger after : Ledger} {made : List Record} (keeps : ledger.Keeps made)
    (cleared : ledger.clear? = some after) : after.Keeps made := by
  obtain ⟨events, noted, rfl⟩ := Option.map_eq_some_iff.mp cleared
  exact ⟨keeps.increasing, keeps.bounded, by simp⟩

/-- A request adds the record that it makes to those that were made. Only a backup makes one; a
step changes a record in its stage, and nothing else touches any. -/
theorem Ledger.Keeps.turns {ledger after : Ledger} {made : List Record}
    {result : Except Failure LedgerAnswer} (keeps : ledger.Keeps made) (orderly : ledger.Orderly)
    (turns : ledger.Turns result after) : after.Keeps (made ++ recordMade result) := by
  cases turns with
  | backedUp appended => exact keeps.append appended
  | advanced stepped =>
    obtain ⟨front, record, stage, rest, advances, _⟩ := orderly.advance_eq_ok stepped
    simpa [recordMade] using keeps.advances advances
  | purged cleared => simpa [recordMade] using keeps.clear cleared
  | reopened idles => simpa [recordMade] using keeps.idles idles
  | refused idles => simpa [recordMade] using keeps.idles idles

/-- Two records of one number that were made are the same, because the numbers of all others are
smaller before it and greater behind it. -/
theorem Ledger.Keeps.eq_of_id_eq {ledger : Ledger} {made : List Record} (keeps : ledger.Keeps made)
    {first second : Record} (earlier : first ∈ made) (later : second ∈ made)
    (same : first.id = second.id) : first = second := by
  obtain ⟨front, rest, rfl⟩ := List.append_of_mem earlier
  have increasing := keeps.increasing
  rw [List.pairwise_append, List.pairwise_cons] at increasing
  obtain ⟨_, ⟨below, _⟩, above⟩ := increasing
  simp only [List.mem_append, List.mem_cons] at later
  obtain inFront | rfl | inRest := later
  · have less := above second inFront first (by simp)
    omega
  · rfl
  · have less := below second inRest
    omega

/-- Records of the same number at two times are made of the same first record, as that number was
given once. Each differs from it in its stage, and so do they from each other. -/
theorem Ledger.Keeps.continues {ledger after : Ledger} {made later : List Record}
    (keeps : ledger.Keeps made) (keepsLater : after.Keeps (made ++ later)) {record other : Record}
    (member : record ∈ ledger.records) (found : other ∈ after.records)
    (same : other.id = record.id) : other.Continues record := by
  obtain ⟨first, earlier, continues⟩ := keeps.stems record member
  obtain ⟨second, listed, continued⟩ := keepsLater.stems other found
  have number : first.id = second.id := by
    rw [Record.Continues] at continues continued
    rw [continues, continued] at same
    exact same.symm
  obtain rfl := keepsLater.eq_of_id_eq (List.mem_append_left _ earlier) listed number
  rw [Record.Continues] at continues continued ⊢
  rw [continues]
  exact continued

/-! ### Answers -/

/-- A request that is refused leaves the tables as they are. -/
theorem Ledger.Turns.of_error {ledger after : Ledger} {failure : Failure}
    (turns : ledger.Turns (.error failure) after) : ledger.Idles after := by
  cases turns with
  | refused idles => exact idles

/-- A backup succeeds while the storage works: an orderly ledger has the table in which its event
is noted. -/
theorem Ledger.Orderly.answer_append {desk : Desk} (orderly : desk.ledger.Orderly) (now : Stamp)
    (identity : Identity) (before : Text) (after : Option Text) :
    let ending := Request.answer ⟨now, .working, .append identity before after⟩ desk
    let record := desk.ledger.nextRecord now identity before after
    ending.1 = .ok (.backedUp record) ∧
      ending.2.ledger.records = desk.ledger.records ++ [record] := by
  obtain ⟨ledger, appended, records, _⟩ := orderly.append now identity before after
  have performed := perform_backUp identity before after { desk with now, outage := {} }
  simp only [appended, Bool.false_eq_true, if_false] at performed
  have answer : Request.answer ⟨now, .working, .append identity before after⟩ desk = _ :=
    Action.perform_map_ok performed LedgerAnswer.backedUp
  rw [answer]
  exact ⟨rfl, records⟩

/-- A mark while the storage works is the step of the ledger, or fails where that does: the two
writes of its transaction are the record and the event of the step. -/
theorem Request.answer_mark {task : LedgerTask} {id : Int} {target : Status}
    (mark : task.mark? = some (id, target)) (now : Stamp) (desk : Desk) :
    match desk.ledger.advance now id target with
    | .ok (ledger, record) =>
      Request.answer ⟨now, .working, task⟩ desk =
        (.ok (.advanced record), { desk with now, outage := {}, ledger })
    | .error _ => ∃ failure, (Request.answer ⟨now, .working, task⟩ desk).1 = .error failure := by
  have performed : Request.answer ⟨now, .working, task⟩ desk =
      (LedgerAnswer.advanced <$> advanceRecord id target).perform
        { desk with now, outage := {} } := LedgerTask.perform_mark mark rfl
  rw [performed]
  cases stepped : desk.ledger.advance now id target with
  | ok ending =>
    have advanced : (advanceRecord id target).perform { desk with now, outage := {} } = _ :=
      perform_advanceRecord_ok stepped
    exact Action.perform_map_ok advanced _
  | error fault =>
    have refused : ∃ failure, (advanceRecord id target).perform { desk with now, outage := {} } =
        (.error failure, { desk with now, outage := {} }) := perform_advanceRecord_error stepped
    obtain ⟨failure, refused⟩ := refused
    exact ⟨failure, by rw [Action.perform_map_error refused]⟩

/-- A mark that succeeds is a step of the ledger: one that is refused fails. -/
theorem Request.answer_mark_eq_ok {task : LedgerTask} {id : Int} {target : Status}
    (mark : task.mark? = some (id, target)) {now : Stamp} {desk : Desk} {answer : LedgerAnswer}
    (success : (Request.answer ⟨now, .working, task⟩ desk).1 = .ok answer) :
    ∃ ledger record, desk.ledger.advance now id target = .ok (ledger, record) ∧
      Request.answer ⟨now, .working, task⟩ desk =
        (.ok (.advanced record), { desk with now, outage := {}, ledger }) := by
  have answered := Request.answer_mark mark now desk
  cases stepped : desk.ledger.advance now id target with
  | ok ending =>
    rw [stepped] at answered
    exact ⟨_, _, rfl, answered⟩
  | error fault =>
    rw [stepped] at answered
    obtain ⟨failure, refused⟩ := answered
    rw [refused] at success
    cases success

/-! ### Runs -/

/-- After any requests the ledger is coherent, and its records are among those made. The induction
is over the requests, and one step of it is that a request does one of few things. -/
theorem Desk.serve_keeps (requests : List Request) (desk : Desk) (made : List Record)
    (coherent : desk.ledger.Coherent) (keeps : desk.ledger.Keeps made) :
    (desk.serve requests).ledger.Coherent ∧
      (desk.serve requests).ledger.Keeps (made ++ desk.recordsMade requests) := by
  induction requests generalizing desk made with
  | nil => simpa [Desk.serve, Desk.recordsMade] using ⟨coherent, keeps⟩
  | cons request later inductionHypothesis =>
    obtain ⟨events, noted, _⟩ := id coherent
    have turns := request.turns noted
    have served := inductionHypothesis (request.answer desk).2 _ (coherent.turns turns)
      (keeps.turns coherent.orderly turns)
    rwa [List.append_assoc] at served

/-- What can be relied on of a ledger, given all the records that were ever made in it. -/
structure Desk.KeepsBooks (made : List Record) (desk : Desk) : Prop where
  /-- No number is given twice, and later records have greater ones. -/
  numbered : made.Pairwise fun older newer => older.id < newer.id
  listed : desk.ledger.records.Pairwise fun older newer => older.id < newer.id
  /-- A record has all that it was made with. -/
  stems : ∀ record ∈ desk.ledger.records, ∃ first ∈ made, record.Continues first
  /-- The events of a record lead to its status. -/
  told : ∀ record ∈ desk.ledger.records, ∃ events,
    desk.ledger.eventsOf? record.id = some events ∧
      (events.Pairwise fun earlier later => earlier.id < later.id) ∧ record.ToldBy events
  /-- Every event is about a record. -/
  owned : ∃ events, desk.ledger.events = some events ∧
    ∀ event ∈ events, ∃ record ∈ desk.ledger.records, record.id = event.record
  updatedAt : ∀ record ∈ desk.ledger.records,
    record.stage.updatedAt.isSome ↔ record.status = .updated ∨ record.status = .rolledBack
  rolledBackAt : ∀ record ∈ desk.ledger.records,
    record.stage.rolledBackAt.isSome ↔ record.status = .rolledBack
  /-- Whatever is done later, a record that is still there differs in its stage at most. -/
  kept : ∀ later, ∀ record ∈ desk.ledger.records, ∀ other ∈ (desk.serve later).ledger.records,
    other.id = record.id → other.Continues record
  /-- While the storage works, a backup adds its record. -/
  backups : ∀ now identity before after,
    let ending := Request.answer ⟨now, .working, .append identity before after⟩ desk
    ∃ record, ending.1 = .ok (.backedUp record) ∧
      ending.2.ledger.records = desk.ledger.records ++ [record] ∧ record.identity = identity ∧
      record.before = before ∧ record.after = after ∧ record.status = .backedUp
  /-- While the storage works, a mark succeeds if it is the next step of a record. -/
  marks : ∀ now task id target, task.mark? = some (id, target) →
    ((∃ answer, (Request.answer ⟨now, .working, task⟩ desk).1 = .ok answer) ↔
      ∃ record ∈ desk.ledger.records, (record.id : Int) = id ∧ record.status.next? = some target)
  /-- A mark that succeeds changes the record in its place, and no other one. -/
  marked : ∀ now task id target, task.mark? = some (id, target) → ∀ answer,
    (Request.answer ⟨now, .working, task⟩ desk).1 = .ok answer →
      ∃ front record stage rest,
        desk.ledger.Advances (Request.answer ⟨now, .working, task⟩ desk).2.ledger now target
          front record stage rest ∧
        (record.id : Int) = id ∧ stage.status = target ∧ answer = .advanced { record with stage }
  /-- What fails, for whatever reason, changes neither records nor events. -/
  refused : ∀ request failure, (Request.answer request desk).1 = .error failure →
    (request.answer desk).2.ledger.records = desk.ledger.records ∧
      (request.answer desk).2.ledger.events = desk.ledger.events

/-- The events of a record are found under its number, in their order, and tell its story. -/
theorem Ledger.Coherent.eventsOf? {ledger : Ledger} (coherent : ledger.Coherent) {record : Record}
    (member : record ∈ ledger.records) :
    ∃ events, ledger.eventsOf? record.id = some events ∧
      (events.Pairwise fun earlier later => earlier.id < later.id) ∧ record.ToldBy events := by
  obtain ⟨events, noted, chronicle⟩ := coherent
  refine ⟨events.filter fun event => event.record == record.id, ?_, chronicle.ordered.filter _,
    chronicle.told record member⟩
  have numbers : (fun event : Event => (event.record : Int) == (record.id : Int)) =
      fun event => event.record == record.id := by
    funext event
    rw [Bool.eq_iff_iff, beq_iff_eq, beq_iff_eq, Int.natCast_inj]
  rw [Ledger.eventsOf?, noted, Option.map_some, numbers]

/-- A coherent ledger keeps books. What is said of the present are parts of its coherence, and
what is said of later requests follows because they keep it. -/
theorem Ledger.Coherent.keepsBooks {desk : Desk} {made : List Record}
    (coherent : desk.ledger.Coherent) (keeps : desk.ledger.Keeps made) : desk.KeepsBooks made where
  numbered := keeps.increasing
  listed := coherent.orderly.increasing
  stems := keeps.stems
  told := fun record member => coherent.eventsOf? member
  owned := by
    obtain ⟨events, noted, chronicle⟩ := coherent
    exact ⟨events, noted, chronicle.owned⟩
  updatedAt := by
    intro record _
    cases stage : record.stage <;> simp [Record.status, stage, Stage.updatedAt, Stage.status]
  rolledBackAt := by
    intro record _
    cases stage : record.stage <;> simp [Record.status, stage, Stage.rolledBackAt, Stage.status]
  kept := by
    intro later record member other found same
    have served := Desk.serve_keeps later desk made coherent keeps
    exact keeps.continues served.2 member found same
  backups := by
    intro now identity before after
    obtain ⟨answer, records⟩ := coherent.orderly.answer_append now identity before after
    exact ⟨_, answer, records, rfl, rfl, rfl, rfl⟩
  marks := by
    intro now task id target mark
    rw [← coherent.orderly.exists_advance_iff now]
    constructor
    · rintro ⟨answer, success⟩
      obtain ⟨ledger, record, stepped, _⟩ := Request.answer_mark_eq_ok mark success
      exact ⟨_, stepped⟩
    · rintro ⟨⟨ledger, record⟩, stepped⟩
      have answered := Request.answer_mark mark now desk
      rw [stepped] at answered
      exact ⟨_, congrArg Prod.fst answered⟩
  marked := by
    intro now task id target mark answer success
    obtain ⟨ledger, advanced, stepped, answered⟩ := Request.answer_mark_eq_ok mark success
    obtain ⟨front, record, stage, rest, advances, number, rfl⟩ :=
      coherent.orderly.advance_eq_ok stepped
    rw [answered] at success ⊢
    refine ⟨front, record, stage, rest, advances, number, ?_, (Except.ok.inj success).symm⟩
    obtain ⟨_, rfl, rfl⟩ | ⟨_, _, rfl, rfl⟩ := Stage.step?_cases advances.next <;> rfl
  refused := by
    intro request failure fails
    obtain ⟨events, noted, _⟩ := coherent
    have turns := request.turns noted
    rw [fails] at turns
    exact ⟨turns.of_error.records, turns.of_error.events⟩

/-- A ledger that was new at the beginning keeps books, whatever is asked of it and wherever its
storage breaks down. Each request is one transaction at most, which leaves the tables coherent
when it is committed and as they were when it is undone; the rest is induction over the
requests. -/
theorem serve_keepsBooks (desk : Desk) (requests : List Request) :
    (({ desk with ledger := {} } : Desk).serve requests).KeepsBooks
      (({ desk with ledger := {} } : Desk).recordsMade requests) := by
  have unmade : ({} : Ledger).Keeps [] := ⟨.nil, by simp, by simp⟩
  obtain ⟨coherent, keeps⟩ := Desk.serve_keeps requests { desk with ledger := {} } []
    Ledger.coherent_empty unmade
  exact coherent.keepsBooks keeps

end SqlRenewal
