import SqlRenewal.Proofs.Ledger.Stack
import SqlRenewal.Proofs.Work.Perform

/-!
# Texts and stacks at a desk

What the desk holds of a routine is its text in the table of definitions and the
stack of its committed backups, the newest on top. A desk is sound if nothing
refuses to work at it and every routine with a stack has a text. Each step of
the work on one routine is described by what it does to the texts and the stacks.
-/
namespace SqlRenewal

/-- The text of a routine in the table of definitions. -/
def Desk.text? (desk : Desk) (identity : Identity) : Option Text :=
  match desk.shelf with
  | .table (some catalog) => (catalog.routine? identity).map Routine.text
  | _ => none

/-- The committed backups of a routine, the newest last. -/
def Desk.stack (desk : Desk) (identity : Identity) : List Record :=
  desk.ledger.committed identity

/-- What a desk holds of one routine. -/
structure Holding where
  text : Option Text
  stack : List Record

/-- What the desk holds of a routine. -/
def Desk.holding (desk : Desk) (identity : Identity) : Holding :=
  ⟨desk.text? identity, desk.stack identity⟩

/-- The definitions are in a table, steps of records can be noted, and no outage is
on; records are numbered as they should be, and a routine with committed backups
is in the table. -/
structure Sound (desk : Desk) : Prop where
  table : ∃ catalog, desk.shelf = .table (some catalog)
  orderly : desk.ledger.Orderly
  working : desk.outage = {}
  stored : ∀ identity, desk.stack identity ≠ [] → ∃ text, desk.text? identity = some text

variable {desk : Desk}

/-- Without records, only the tables have to be there. -/
theorem Sound.ofEmpty (table : ∃ catalog, desk.shelf = .table (some catalog))
    (noted : ∃ events, desk.ledger.events = some events) (working : desk.outage = {})
    (empty : desk.ledger.records = []) : Sound desk := by
  refine ⟨table, .ofEmpty noted empty, working, ?_⟩
  intro identity stacked
  exact absurd (by simp [Desk.stack, Ledger.committed_eq, empty]) stacked

/-! ### The log and the time -/

/-- The text of a routine in a table depends on the shelf only. -/
theorem text?_congr {other : Desk} (shelf : other.shelf = desk.shelf) (identity : Identity) :
    other.text? identity = desk.text? identity := by
  rw [Desk.text?, shelf, Desk.text?]

/-- Lines of the log are no change of a text. -/
@[simp] theorem Desk.logged_text? (lines : List LogLine) (identity : Identity) :
    (desk.logged lines).text? identity = desk.text? identity := rfl

/-- Lines of the log are no change of a stack. -/
@[simp] theorem Desk.logged_stack (lines : List LogLine) (identity : Identity) :
    (desk.logged lines).stack identity = desk.stack identity := rfl

/-- A desk stays sound with more lines in its log. -/
theorem Sound.logged (sound : Sound desk) (lines : List LogLine) : Sound (desk.logged lines) :=
  ⟨sound.table, sound.orderly, sound.working, sound.stored⟩

/-- A desk stays sound at another time. -/
theorem Sound.atTime (sound : Sound desk) (now : Stamp) : Sound { desk with now } :=
  ⟨sound.table, sound.orderly, sound.working, sound.stored⟩

/-! ### Texts -/

namespace Catalog

/-- The routine that is found has the identity under which it is found. -/
theorem routine?_identity {catalog : Catalog} {identity : Identity} {routine : Routine}
    (found : catalog.routine? identity = some routine) : routine.identity = identity := by
  simpa using List.find?_some found

/-- A change that leaves the names alone leaves the places alone: the search looks at names only
and finds the changed routine in the old place. -/
theorem routine?_map {change : Routine → Routine}
    (named : ∀ routine, (change routine).identity = routine.identity) (catalog : Catalog)
    (identity : Identity) :
    Catalog.routine? (List.map change catalog) identity = (catalog.routine? identity).map change := by
  have same : ((fun routine : Routine => routine.identity == identity) ∘ change) =
      fun routine => routine.identity == identity := by
    funext routine
    simp [named]
  rw [routine?, List.find?_map, same]
  rfl

/-- To set a text changes what is found under that identity, and nothing else: rows keep their
identities, and so their places in the search. -/
theorem routine?_setText (catalog : Catalog) (identity other : Identity) (text : Text) :
    (catalog.setText identity text).routine? other = (catalog.routine? other).map fun routine =>
      if other = identity then { routine with text } else routine := by
  have named (routine : Routine) :
      (if routine.identity = identity then { routine with text } else routine).identity =
        routine.identity := by
    split <;> rfl
  rw [setText, routine?_map named]
  cases found : catalog.routine? other with
  | none => rfl
  | some routine => rw [Option.map_some, Option.map_some, routine?_identity found]

/-- To set a text gives that text to the routine, if there is one. -/
theorem text_setText (catalog : Catalog) (identity other : Identity) (text : Text) :
    ((catalog.setText identity text).routine? other).map Routine.text =
      if other = identity then (catalog.routine? other).map fun _ => text
      else (catalog.routine? other).map Routine.text := by
  rw [routine?_setText, Option.map_map]
  split
  · rfl
  · rfl

/-- To put a routine gives its text to its identity, whether there was one or not. -/
theorem text_put (catalog : Catalog) (routine : Routine) (other : Identity) :
    ((catalog.put routine).routine? other).map Routine.text =
      if other = routine.identity then some routine.text
      else (catalog.routine? other).map Routine.text := by
  rw [put]
  split
  · rename_i present
    have named (kept : Routine) :
        (if kept.identity = routine.identity then routine else kept).identity = kept.identity := by
      split
      · rename_i same
        exact same.symm
      · rfl
    rw [routine?_map named, Option.map_map]
    cases found : catalog.routine? other with
    | none =>
      have distinct : other ≠ routine.identity := by
        rintro rfl
        rw [found] at present
        cases present
      simp [distinct]
    | some kept =>
      have owner := routine?_identity found
      by_cases same : other = routine.identity
      · simp [owner, same]
      · simp [owner, same]
  · rename_i missing
    rw [routine?, List.find?_append]
    by_cases same : other = routine.identity
    · have absent : List.find? (fun kept : Routine => kept.identity == routine.identity) catalog =
          none := by simpa [routine?] using missing
      simp [absent, same]
    · have distinct : (routine.identity == other) = false := by
        simpa using fun equal : routine.identity = other => same equal.symm
      simp [same, distinct, routine?]

end Catalog

/-- A text is read from the table. -/
theorem Sound.perform_readRoutine (sound : Sound desk) (identity : Identity) :
    (readRoutine identity).perform desk =
      (match desk.text? identity with
        | some text => .ok text
        | none => .error (.noRoutine identity), desk) := by
  obtain ⟨catalog, table⟩ := sound.table
  simp only [readRoutine, Action.perform_bind, Action.perform_get, table, Desk.text?]
  cases catalog.routine? identity <;> rfl

/-- A new table leaves the ledger alone. If no routine is lost, the desk stays sound. -/
theorem Sound.withCatalog (sound : Sound desk) {catalog : Catalog}
    (kept : ∀ identity text, desk.text? identity = some text →
      ((catalog.routine? identity).map Routine.text).isSome = true) :
    Sound { desk with shelf := .table (some catalog) } := by
  refine ⟨⟨catalog, rfl⟩, sound.orderly, sound.working, ?_⟩
  intro identity stacked
  obtain ⟨text, stored⟩ := sound.stored identity stacked
  exact Option.isSome_iff_exists.mp (kept identity text stored)

/-- The text of a routine in the table is replaced, and no other text, stack or record is
touched. -/
theorem Sound.perform_writeRoutine (sound : Sound desk) {identity : Identity} {old : Text}
    (stored : desk.text? identity = some old) (text : Text) :
    ∃ after, (writeRoutine identity text).perform desk = (.ok ⟨⟩, after) ∧ Sound after ∧
      after.ledger = desk.ledger ∧
      ∀ other, after.text? other = if other = identity then some text else desk.text? other := by
  obtain ⟨catalog, table⟩ := sound.table
  have inTable (other : Identity) :
      desk.text? other = (catalog.routine? other).map Routine.text := by rw [Desk.text?, table]
  have written (other : Identity) :
      ((catalog.setText identity text).routine? other).map Routine.text =
        if other = identity then some text else desk.text? other := by
    rw [Catalog.text_setText, inTable]
    split
    · rename_i same
      rw [inTable, ← same] at stored
      obtain ⟨routine, found, _⟩ := Option.map_eq_some_iff.mp stored
      rw [found, Option.map_some]
    · rfl
  refine ⟨{ desk with shelf := .table (some (catalog.setText identity text)) }, ?_, ?_, rfl, written⟩
  · rw [inTable] at stored
    obtain ⟨routine, found, _⟩ := Option.map_eq_some_iff.mp stored
    simp [writeRoutine, Action.perform_bind, table, found, sound.working, setCatalog]
  · apply sound.withCatalog
    intro other current present
    rw [written]
    split
    · rfl
    · rw [present]
      rfl

/-- A routine that is not there cannot be written, and nothing happens. -/
theorem Sound.perform_writeRoutine_absent (sound : Sound desk) {identity : Identity}
    (absent : desk.text? identity = none) (text : Text) :
    (writeRoutine identity text).perform desk =
      (.error (.commit identity .noRoutine), desk) := by
  obtain ⟨catalog, table⟩ := sound.table
  rw [Desk.text?, table] at absent
  have missing : catalog.routine? identity = none := by simpa using absent
  simp [writeRoutine, Action.perform_bind, table, missing, sound.working]

/-- A definition is added, or put in the place of the old one. The ledger is left alone, so every
stack is as it was. -/
theorem Sound.perform_putRoutine (sound : Sound desk) (identity : Identity) (text : Text)
    (kind : Option Text) :
    ∃ after, (putRoutine identity text kind).perform desk = (.ok ⟨⟩, after) ∧ Sound after ∧
      after.ledger = desk.ledger ∧
      ∀ other, after.text? other = if other = identity then some text else desk.text? other := by
  obtain ⟨catalog, table⟩ := sound.table
  have written (other : Identity) :
      ((catalog.put (Catalog.define identity text kind)).routine? other).map Routine.text =
        if other = identity then some text else desk.text? other := by
    rw [Catalog.text_put, Desk.text?, table]
    rfl
  refine ⟨{ desk with shelf := .table (some (catalog.put (Catalog.define identity text kind))) },
    ?_, ?_, rfl, written⟩
  · simp [putRoutine, getCatalog, Action.perform_bind, table, setCatalog]
  · apply sound.withCatalog
    intro other current present
    rw [written]
    split
    · rfl
    · rw [present]
      rfl

/-! ### Stacks -/

/-- A record takes its next step where it stands. -/
theorem Sound.perform_advanceRecord (sound : Sound desk) {front rest : List Record} {record : Record}
    (split : desk.ledger.records = front ++ record :: rest) {target : Status} {stage : Stage}
    (next : record.stage.step? desk.now target = some stage) :
    ∃ ledger : Ledger, (advanceRecord record.id target).perform desk =
        (.ok { record with stage }, { desk with ledger }) ∧
      ledger.records = front ++ { record with stage } :: rest ∧ ledger.Orderly := by
  obtain ⟨ledger, advanced, records, orderly⟩ := sound.orderly.advance split next
  exact ⟨ledger, perform_advanceRecord_ok advanced, records, orderly⟩

/-- A backup is added to the ledger and to no stack: its record waits for the text to be
written. -/
theorem Sound.perform_backUp (sound : Sound desk) (identity : Identity) (before : Text)
    (after : Option Text) :
    ∃ backed record, (backUp identity before after).perform desk = (.ok record, backed) ∧
      Sound backed ∧ backed.shelf = desk.shelf ∧
      backed.ledger.records = desk.ledger.records ++ [record] ∧
      record = desk.ledger.nextRecord desk.now identity before after ∧
      ∀ other, backed.stack other = desk.stack other := by
  obtain ⟨ledger, appended, records, orderly⟩ :=
    sound.orderly.append desk.now identity before after
  have stackOf (other : Identity) : ledger.committed other = desk.stack other := by
    simp [Ledger.committed_eq, records, Desk.stack, Ledger.onStack, Ledger.nextRecord,
      Record.status, Stage.status]
  have working : desk.outage.backups = false := by rw [sound.working]
  have unlogged : Sound { desk with ledger } := by
    refine ⟨sound.table, orderly, sound.working, ?_⟩
    intro other stacked
    rw [Desk.stack, stackOf] at stacked
    exact sound.stored other stacked
  have performed := SqlRenewal.perform_backUp identity before after desk
  simp only [working, Bool.false_eq_true, if_false, appended] at performed
  exact ⟨_, _, performed, unlogged.logged _, rfl, records, rfl, stackOf⟩

/-- A backup whose text has been written goes on top of the stack of its routine, since it is the
last record of all. -/
theorem Sound.perform_markUpdated (sound : Sound desk) {older : List Record} {record : Record}
    (last : desk.ledger.records = older ++ [record]) (pending : record.stage = .backedUp)
    {text : Text} (stored : desk.text? record.identity = some text) :
    ∃ after, (markUpdated record.id).perform desk =
        (.ok { record with stage := .updated desk.now }, after) ∧
      Sound after ∧ after.shelf = desk.shelf ∧
      ∀ other, after.stack other = desk.stack other ++
        if other = record.identity then [{ record with stage := .updated desk.now }] else [] := by
  have next : record.stage.step? desk.now .updated = some (.updated desk.now) := by
    rw [pending]
    rfl
  obtain ⟨ledger, advanced, records, orderly⟩ := sound.perform_advanceRecord last next
  have stackOf (other : Identity) : ledger.committed other = desk.stack other ++
      if other = record.identity then [{ record with stage := .updated desk.now }] else [] := by
    have unstacked : Ledger.onStack other record = false := by
      simp [Ledger.onStack, Record.status, pending, Stage.status]
    have below : desk.stack other = older.filter (Ledger.onStack other) := by
      simp [Desk.stack, Ledger.committed_eq, last, unstacked]
    rw [Ledger.committed_eq, records, List.filter_append, ← below]
    by_cases owner : other = record.identity
    · simp [Ledger.onStack, Record.status, Stage.status, owner]
    · simp [Ledger.onStack, owner]
  have working : desk.outage.updates = false := by rw [sound.working]
  refine ⟨{ desk with ledger }, ?_, ⟨sound.table, orderly, sound.working, ?_⟩, rfl, stackOf⟩
  · rw [SqlRenewal.perform_markUpdated working]
    exact advanced
  · intro other stacked
    by_cases owner : other = record.identity
    · exact ⟨text, owner ▸ stored⟩
    · rw [Desk.stack, stackOf, if_neg owner, List.append_nil] at stacked
      exact sound.stored other stacked

/-- A committed backup that is taken back leaves the stack of its routine, wherever it stands
there. -/
theorem Sound.perform_markRolledBack (sound : Sound desk) {identity : Identity}
    {below above : List Record} {record : Record}
    (stack : desk.stack identity = below ++ record :: above) :
    ∃ restored after, (markRolledBack record.id).perform desk = (.ok restored, after) ∧
      Sound after ∧ after.shelf = desk.shelf ∧
      ∀ other, after.stack other =
        if other = identity then below ++ above else desk.stack other := by
  obtain ⟨front, rest, split, lower, upper, status, owner⟩ := Ledger.committed_split stack
  obtain ⟨stamp, committed⟩ : ∃ stamp, record.stage = .updated stamp := by
    cases stage : record.stage with
    | backedUp => simp [Record.status, stage, Stage.status] at status
    | updated stamp => exact ⟨stamp, rfl⟩
    | rolledBack updatedAt rolledBackAt => simp [Record.status, stage, Stage.status] at status
  have next : record.stage.step? desk.now .rolledBack = some (.rolledBack stamp desk.now) := by
    rw [committed]
    rfl
  obtain ⟨ledger, advanced, records, orderly⟩ := sound.perform_advanceRecord split next
  have stackOf (other : Identity) : ledger.committed other =
      if other = identity then below ++ above else desk.stack other := by
    have removed : Ledger.onStack other { record with stage := .rolledBack stamp desk.now } = false := by
      simp [Ledger.onStack, Record.status, Stage.status]
    rw [Ledger.committed_eq, records, List.filter_append,
      List.filter_cons_of_neg (by simp [removed])]
    by_cases same : other = identity
    · rw [if_pos same, same, lower, upper]
    · have unstacked : Ledger.onStack other record = false := by
        simp [Ledger.onStack, owner, same]
      rw [if_neg same, Desk.stack, Ledger.committed_eq, split, List.filter_append,
        List.filter_cons_of_neg (by simp [unstacked])]
  refine ⟨_, { desk with ledger }, advanced, ⟨sound.table, orderly, sound.working, ?_⟩, rfl, stackOf⟩
  intro other stacked
  by_cases same : other = identity
  · rw [same]
    exact sound.stored identity (by simp [stack])
  · rw [Desk.stack, stackOf, if_neg same] at stacked
    exact sound.stored other stacked

end SqlRenewal
