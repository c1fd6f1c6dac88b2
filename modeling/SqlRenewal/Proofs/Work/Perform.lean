import SqlRenewal.Work.Batch
import SqlRenewal.Proofs.Ledger.Transaction

/-!
# Performing an operation step by step

An operation at a desk is taken apart into its steps. A step that fails ends the
operation, and the desk stays as the step left it.
-/
namespace SqlRenewal

/-! ### Steps -/

namespace Action

variable {α β : Type} {desk after : Desk}

/-- An answer takes no work. -/
@[simp] theorem perform_pure (value : α) (desk : Desk) :
    (pure value : Action α).perform desk = (.ok value, desk) := rfl

/-- A failure leaves the desk as it is. -/
@[simp] theorem perform_throw (failure : Failure) (desk : Desk) :
    (throw failure : Action α).perform desk = (.error failure, desk) := rfl

/-- What is looked at is the desk itself. -/
@[simp] theorem perform_get (desk : Desk) : (get : Action Desk).perform desk = (.ok desk, desk) := rfl

/-- A desk that is set is the one afterwards. -/
@[simp] theorem perform_set (other desk : Desk) :
    (set other : Action PUnit).perform desk = (.ok ⟨⟩, other) := rfl

/-- A change of the desk is made to the desk as it is. -/
@[simp] theorem perform_modify (change : Desk → Desk) (desk : Desk) :
    (modify change : Action PUnit).perform desk = (.ok ⟨⟩, change desk) := rfl

/-- The second step begins at the desk that the first one left. -/
theorem perform_bind (action : Action α) (next : α → Action β) (desk : Desk) :
    (action >>= next).perform desk =
      match action.perform desk with
      | (.ok value, after) => (next value).perform after
      | (.error failure, after) => (.error failure, after) := by
  simp only [Action.perform, ExceptT.run, bind, ExceptT.bind, ExceptT.mk, StateT.bind, StateT.run]
  cases action desk with
  | mk result after => cases result <;> rfl

/-- What a failure leaves behind is there for the one who handles it. -/
theorem perform_tryCatch (action : Action α) (handle : Failure → Action α) (desk : Desk) :
    (tryCatch action handle : Action α).perform desk =
      match action.perform desk with
      | (.ok value, after) => (.ok value, after)
      | (.error failure, after) => (handle failure).perform after := by
  simp only [Action.perform, ExceptT.run, tryCatch, tryCatchThe, MonadExceptOf.tryCatch,
    ExceptT.tryCatch, ExceptT.mk, bind, StateT.bind, StateT.run]
  cases action desk with
  | mk result after => cases result <;> rfl

/-- Behind a first step that succeeds the second one is taken, with its value and from its
desk. -/
theorem perform_bind_ok {action : Action α} {value : α}
    (first : action.perform desk = (.ok value, after)) (next : α → Action β) :
    (action >>= next).perform desk = (next value).perform after := by
  rw [perform_bind, first]

/-- A first step that fails is the end. -/
theorem perform_bind_error {action : Action α} {failure : Failure}
    (first : action.perform desk = (.error failure, after)) (next : α → Action β) :
    (action >>= next).perform desk = (.error failure, after) := by
  rw [perform_bind, first]

/-- Two steps come to a result exactly if both do, the second one from the desk that the first has
left. -/
theorem perform_bind_eq_ok {action : Action α} {next : α → Action β} {result : β} :
    (action >>= next).perform desk = (.ok result, after) ↔ ∃ value middle,
      action.perform desk = (.ok value, middle) ∧ (next value).perform middle = (.ok result, after) := by
  rw [perform_bind]
  constructor
  · intro ended
    split at ended
    · rename_i value middle first
      exact ⟨value, middle, first, ended⟩
    · cases ended
  · rintro ⟨value, middle, first, second⟩
    rw [first]
    exact second

/-- To put a result in another form changes nothing about the desk. -/
theorem perform_map_ok {action : Action α} {value : α}
    (first : action.perform desk = (.ok value, after)) (change : α → β) :
    (change <$> action).perform desk = (.ok (change value), after) := by
  rw [← bind_pure_comp, perform_bind_ok first]
  rfl

/-- A failure has no result to put in another form. -/
theorem perform_map_error {action : Action α} {failure : Failure}
    (first : action.perform desk = (.error failure, after)) (change : α → β) :
    (change <$> action).perform desk = (.error failure, after) := by
  rw [← bind_pure_comp, perform_bind_error first]

end Action

/-! ### The log -/

/-- The desk with more lines in its log. -/
def Desk.logged (desk : Desk) (lines : List LogLine) : Desk :=
  { desk with log := desk.log ++ lines }

/-- A line is written behind those that are in the log. -/
@[simp] theorem perform_say (level : Level) (channel : Channel) (message : String) (desk : Desk) :
    (say level channel message).perform desk = (.ok ⟨⟩, desk.logged [⟨level, channel, message⟩]) :=
  rfl

/-- A line for each of several items is written to the log, and nothing else happens, by induction
over the items. -/
theorem perform_forM_say {α : Type} (items : List α) (level : Level) (channel : Channel)
    (message : α → String) (desk : Desk) :
    ∃ lines, (items.forM fun item => say level channel (message item)).perform desk =
      (.ok ⟨⟩, desk.logged lines) := by
  induction items generalizing desk with
  | nil => exact ⟨[], by simp [Desk.logged]⟩
  | cons item items inductionHypothesis =>
    obtain ⟨lines, later⟩ := inductionHypothesis (desk.logged [⟨level, channel, message item⟩])
    refine ⟨⟨level, channel, message item⟩ :: lines, ?_⟩
    rw [List.forM, Action.perform_bind_ok (perform_say _ _ _ _), later]
    simp [Desk.logged]

/-! ### Transactions -/

/-- The operation fails, and all that it leaves behind are lost numbers of the ledger. -/
def Action.FailsIdly {α : Type} (action : Action α) (desk : Desk) : Prop :=
  ∃ failure ledger, action.perform desk = (.error failure, { desk with ledger }) ∧
    desk.ledger.Idles ledger

/-- What fails without another trace fails so as the first step of an operation. -/
theorem Action.FailsIdly.bind {α β : Type} {action : Action α} {desk : Desk}
    (fails : action.FailsIdly desk) (next : α → Action β) : (action >>= next).FailsIdly desk := by
  obtain ⟨failure, ledger, stopped, idles⟩ := fails
  exact ⟨failure, ledger, Action.perform_bind_error stopped next, idles⟩

/-- Behind a step that leaves the desk as it is, an operation fails as it fails there. -/
theorem Action.FailsIdly.behind {α β : Type} {action : Action α} {desk : Desk} {value : α}
    {next : α → Action β} (fails : (next value).FailsIdly desk)
    (unchanged : action.perform desk = (.ok value, desk)) : (action >>= next).FailsIdly desk := by
  rwa [Action.FailsIdly, Action.perform_bind_ok unchanged]

/-- To put a result in another form does not help an operation that fails. -/
theorem Action.FailsIdly.map {α β : Type} {action : Action α} {desk : Desk}
    (fails : action.FailsIdly desk) (change : α → β) : (change <$> action).FailsIdly desk := by
  rw [← bind_pure_comp]
  exact fails.bind _

/-- An operation that fails without a trace loses no numbers either. -/
theorem Action.FailsIdly.ofRefusal {α : Type} {action : Action α} {desk : Desk} {failure : Failure}
    (stopped : action.perform desk = (.error failure, desk)) : action.FailsIdly desk :=
  ⟨failure, desk.ledger, stopped, .refl _⟩

/-- A transaction succeeds if it is committed, and leaves the ledger that it comes to. -/
theorem perform_transaction (failure : Failure) (writes : List Write)
    (breakdown : Option Breakdown) (desk : Desk) :
    (transaction failure writes breakdown).perform desk =
      match desk.ledger.transact breakdown writes with
      | (.committed, ledger) => (.ok ⟨⟩, { desk with ledger })
      | (.undone, ledger) => (.error failure, { desk with ledger })
      | (.unbegun, ledger) => (.error .storage, { desk with ledger }) := by
  simp only [transaction, Action.perform_bind, Action.perform_get]
  obtain ⟨ending, ledger⟩ := desk.ledger.transact breakdown writes
  cases ending <;> rfl

/-- A transaction that is not committed fails, and only numbers are lost with it: the tables are
those of its beginning. -/
theorem failsIdly_transaction {failure : Failure} {writes : List Write}
    {breakdown : Option Breakdown} {desk : Desk}
    (uncommitted : (desk.ledger.transact breakdown writes).1 ≠ .committed) :
    (transaction failure writes breakdown).FailsIdly desk := by
  have idles := Ledger.idles_transact uncommitted
  have performed := perform_transaction failure writes breakdown desk
  cases ended : desk.ledger.transact breakdown writes with
  | mk ending ledger =>
    rw [ended] at uncommitted idles performed
    cases ending with
    | committed => exact absurd rfl uncommitted
    | undone => exact ⟨_, _, performed, idles⟩
    | unbegun => exact ⟨_, _, performed, idles⟩

/-- No transaction is committed while the storage breaks down. -/
theorem failsIdly_transaction_some (failure : Failure) (writes : List Write)
    (breakdown : Breakdown) (desk : Desk) :
    (transaction failure writes (some breakdown)).FailsIdly desk := by
  refine failsIdly_transaction fun committed => ?_
  obtain ⟨working, _⟩ := Ledger.transact_eq_committed_iff.mp (Prod.ext committed rfl)
  cases working

/-! ### Backups -/

/-- A backup is refused, or its record is added, or it fails because its event cannot be
noted. -/
theorem perform_backUp (identity : Identity) (before : Text) (after : Option Text) (desk : Desk) :
    (backUp identity before after).perform desk =
      if desk.outage.backups then (.error (.ledger (.fullAtBackup identity)), desk)
      else match desk.ledger.append desk.now identity before after with
        | (ledger, none) => (.error (.ledger (.backup identity)), { desk with ledger })
        | (ledger, some record) =>
          (.ok record, ({ desk with ledger } : Desk).logged [⟨.debug, .ledger,
            "Backed up " ++ String.ofList identity.qualified ++ s!" as record {record.id}"⟩]) := by
  cases refusing : desk.outage.backups with
  | true => simp [backUp, Action.perform_bind, refusing]
  | false =>
    simp only [backUp, Action.perform_bind, Action.perform_get, refusing, Bool.false_eq_true,
      if_false, perform_transaction, Ledger.transact_append]
    -- The record that a backup brings is the one that its first write inserts.
    cases noted : desk.ledger.events with
    | none => simp [Ledger.append, noted]
    | some events => simp [Ledger.append, noted]

/-- A backup during which the storage breaks down leaves no record, because it is one transaction,
and before it only a refusal can come. -/
theorem failsIdly_backUp (identity : Identity) (before : Text) (after : Option Text)
    (breakdown : Breakdown) (desk : Desk) :
    (backUp identity before after (some breakdown)).FailsIdly desk := by
  cases refusing : desk.outage.backups with
  | true =>
    have stopped : (backUp identity before after (some breakdown)).perform desk =
        (.error (.ledger (.fullAtBackup identity)), desk) := by
      simp [backUp, Action.perform_bind, refusing]
    exact .ofRefusal stopped
  | false =>
    refine Action.FailsIdly.behind ?_ (Action.perform_get desk)
    simp only [refusing, Bool.false_eq_true, if_false]
    exact (failsIdly_transaction_some _ _ breakdown desk).bind _

/-- A number that belongs to nothing is refused only if it cannot be compared; else the search
goes on without it. -/
theorem perform_checkNumber (id : Int) (compared : Bool) (desk : Desk) :
    (checkNumber id compared).perform desk = (.ok ⟨⟩, desk) ∨
      (checkNumber id compared).perform desk = (.error .storage, desk) ∧
        Ledger.isComparable id = false := by
  rw [checkNumber]
  split
  · left
    rfl
  · rename_i refused
    right
    refine ⟨rfl, ?_⟩
    simp only [Bool.or_eq_true, not_or] at refused
    simpa using refused.1

/-! ### Steps of a record

A step that the record of a number cannot take is refused before a transaction begins. One that
it can take is one transaction. -/

section Steps

variable {desk : Desk} {id : Int} {target : Status}

/-- A number without a record is refused, at the latest because it has none. -/
theorem perform_advanceRecord_absent (absent : desk.ledger.find? id = none) (target : Status)
    (breakdown : Option Breakdown) :
    ∃ failure, (advanceRecord id target breakdown).perform desk = (.error failure, desk) := by
  simp only [advanceRecord, Action.perform_bind_ok (Action.perform_get desk), absent]
  obtain checked | ⟨checked, _⟩ := perform_checkNumber id (!desk.ledger.records.isEmpty) desk
  · exact ⟨_, by rw [Action.perform_bind_ok checked]; rfl⟩
  · exact ⟨_, Action.perform_bind_error checked _⟩

/-- A step that is not the next one of its record is refused before a transaction begins. -/
theorem perform_advanceRecord_barred {record : Record} (found : desk.ledger.find? id = some record)
    (barred : record.stage.step? desk.now target = none) (breakdown : Option Breakdown) :
    (advanceRecord id target breakdown).perform desk =
      (.error (.transition id record.status target), desk) := by
  simp only [advanceRecord, Action.perform_bind, Action.perform_get, found, barred,
    Action.perform_throw]

/-- What a record that can take its step does is decided by the transaction alone. -/
theorem perform_advanceRecord_step {record : Record} {stage : Stage}
    (found : desk.ledger.find? id = some record)
    (next : record.stage.step? desk.now target = some stage) (breakdown : Option Breakdown) :
    (advanceRecord id target breakdown).perform desk =
      ((fun _ => { record with stage }) <$> transaction (.ledger (.mark id target))
        [.setRecord { record with stage },
          .insertEvent desk.now record.id (some record.status) target] breakdown).perform desk := by
  rw [← bind_pure_comp]
  simp only [advanceRecord, Action.perform_bind, Action.perform_get, found, next]

/-- While the storage works, a record that can take its step does what the ledger does: the step
is taken and noted, or undone because it cannot be noted. -/
theorem perform_advanceRecord_next {record : Record} {stage : Stage}
    (found : desk.ledger.find? id = some record)
    (next : record.stage.step? desk.now target = some stage) :
    (advanceRecord id target).perform desk =
      match desk.ledger.advance desk.now id target with
      | .ok (ledger, advanced) => (.ok advanced, { desk with ledger })
      | .error _ => (.error (.ledger (.mark id target)), desk) := by
  have performed := perform_transaction (.ledger (.mark id target))
    [.setRecord { record with stage }, .insertEvent desk.now record.id (some record.status) target]
    none desk
  rw [Ledger.transact_advance found next] at performed
  rw [perform_advanceRecord_step found next]
  cases noted : desk.ledger.events with
  | none =>
    simp only [Ledger.advance, found, next, noted] at performed ⊢
    exact Action.perform_map_error performed _
  | some events =>
    simp only [Ledger.advance, found, next, noted] at performed ⊢
    exact Action.perform_map_ok performed _

/-- A step that the ledger takes is taken: the two writes of its transaction are both made. -/
theorem perform_advanceRecord_ok {ledger : Ledger} {record : Record}
    (stepped : desk.ledger.advance desk.now id target = .ok (ledger, record)) :
    (advanceRecord id target).perform desk = (.ok record, { desk with ledger }) := by
  cases found : desk.ledger.find? id with
  | none => simp [Ledger.advance, found] at stepped
  | some old =>
    cases next : old.stage.step? desk.now target with
    | none => simp [Ledger.advance, found, next] at stepped
    | some stage => rw [perform_advanceRecord_next found next, stepped]

/-- A step that cannot be noted is undone. The record is found and the step is one of its stage,
so the table of events is what was missing. -/
theorem perform_advanceRecord_unnoted
    (unnoted : desk.ledger.advance desk.now id target = .error .noEvents) :
    (advanceRecord id target).perform desk = (.error (.ledger (.mark id target)), desk) := by
  cases found : desk.ledger.find? id with
  | none => simp [Ledger.advance, found] at unnoted
  | some record =>
    cases next : record.stage.step? desk.now target with
    | none => simp [Ledger.advance, found, next] at unnoted
    | some stage => rw [perform_advanceRecord_next found next, unnoted]

/-- A step that the ledger does not take changes nothing: there is no such record, its stage has
no such step, or the event cannot be noted. -/
theorem perform_advanceRecord_error {fault : StepFault}
    (refused : desk.ledger.advance desk.now id target = .error fault) :
    ∃ failure, (advanceRecord id target).perform desk = (.error failure, desk) := by
  cases found : desk.ledger.find? id with
  | none => exact perform_advanceRecord_absent found target none
  | some record =>
    cases next : record.stage.step? desk.now target with
    | none => exact ⟨_, perform_advanceRecord_barred found next none⟩
    | some stage => exact ⟨_, by rw [perform_advanceRecord_next found next, refused]⟩

/-- A step during which the storage breaks down is not taken: it is refused before, or its
transaction is given up. -/
theorem failsIdly_advanceRecord (id : Int) (target : Status) (breakdown : Breakdown) (desk : Desk) :
    (advanceRecord id target (some breakdown)).FailsIdly desk := by
  cases found : desk.ledger.find? id with
  | none =>
    obtain ⟨failure, stopped⟩ := perform_advanceRecord_absent found target (some breakdown)
    exact .ofRefusal stopped
  | some record =>
    cases next : record.stage.step? desk.now target with
    | none => exact .ofRefusal (perform_advanceRecord_barred found next _)
    | some stage =>
      rw [Action.FailsIdly, perform_advanceRecord_step found next]
      exact (failsIdly_transaction_some _ _ breakdown desk).map _

end Steps

/-- While marks are not refused, a committed change is marked by a step of its record. -/
theorem perform_markUpdated {desk : Desk} (allowed : desk.outage.updates = false) (id : Int)
    (breakdown : Option Breakdown) :
    (markUpdated id breakdown).perform desk =
      (advanceRecord id .updated breakdown).perform desk := by
  simp [markUpdated, Action.perform_bind, allowed]

/-- While marks are refused, none is made. -/
theorem perform_markUpdated_refused {desk : Desk} (refusing : desk.outage.updates = true) (id : Int)
    (breakdown : Option Breakdown) :
    (markUpdated id breakdown).perform desk = (.error (.ledger (.fullAtMark id)), desk) := by
  simp [markUpdated, Action.perform_bind, refusing]

/-- A mark during which the storage breaks down is not made, whether it was refused before or
not. -/
theorem failsIdly_markUpdated (id : Int) (breakdown : Breakdown) (desk : Desk) :
    (markUpdated id (some breakdown)).FailsIdly desk := by
  cases refusing : desk.outage.updates with
  | true => exact .ofRefusal (perform_markUpdated_refused refusing id _)
  | false =>
    rw [Action.FailsIdly, perform_markUpdated refusing]
    exact failsIdly_advanceRecord id .updated breakdown desk

/-! ### Removing everything -/

/-- Without a table of events nothing is removed. -/
theorem perform_purge_refused {desk : Desk} (refused : desk.ledger.clear? = none) :
    (purge true).perform desk = (.error .storage, desk) := by
  have stopped : (transaction .storage [.deleteEvents, .deleteRecords] none).perform desk =
      (.error .storage, desk) := by
    simp only [perform_transaction, Ledger.transact_clear, refused]
  simp [purge, purgeBy, removeRecords, Action.perform_bind, stopped]

/-- All records are removed, and a line says how many there were. The number is taken before the
transaction that removes them. -/
theorem perform_purge {desk : Desk} {ledger : Ledger} (cleared : desk.ledger.clear? = some ledger) :
    ∃ lines, (purge true).perform desk =
      (.ok desk.ledger.records.length, ({ desk with ledger } : Desk).logged lines) := by
  have removed : (transaction .storage [.deleteEvents, .deleteRecords] none).perform desk =
      (.ok ⟨⟩, { desk with ledger }) := by
    simp only [perform_transaction, Ledger.transact_clear, cleared]
  simp only [purge, purgeBy, removeRecords, Bool.not_true, Bool.false_eq_true, if_false,
    Action.perform_bind, Action.perform_get, removed]
  exact ⟨_, rfl⟩

/-- Nothing is removed while the storage breaks down, confirmed or not. Without consent the
refusal comes first, and otherwise the transaction fails. -/
theorem failsIdly_purge (confirmed : Bool) (breakdown : Breakdown) (desk : Desk) :
    (purgeBy (removeRecords (some breakdown)) confirmed).FailsIdly desk := by
  cases confirmed with
  | false => exact .ofRefusal rfl
  | true =>
    refine Action.FailsIdly.behind ?_ (Action.perform_get desk)
    exact (failsIdly_transaction_some _ _ breakdown desk).bind _

end SqlRenewal
