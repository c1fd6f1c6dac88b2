import Mathlib
import SqlRenewal.Proofs.Work.Change

/-!
# Taking changes back

The committed backups of a routine work as a stack. A committed change pushes the
text that it replaced; taking a change back removes the newest backup, or the one
of a number, and restores its text. This holds at every desk that any run of
tasks leads to, and no task touches the text or the stack of a routine that it
does not name.

If a run makes backups of all its commits and takes back only the newest change
each time, the stack of a routine links its text back to where it was when the
run began, one commit at a time. Taking changes back until there is none left
therefore restores that text.
-/
namespace SqlRenewal

/-! ### Taking one change back -/

/-- What taking a change back makes of a routine. -/
inductive RollsBack (choice : Choice) : Holding → Holding → Prop where
  | absent {holding : Holding} (none : ∀ record ∈ holding.stack, choice.admits record = false) :
      RollsBack choice holding holding
  | popped {text : Option Text} {below above : List Record} {record : Record}
      (admitted : choice.admits record = true)
      (newest : ∀ other ∈ above, choice.admits other = false) :
      RollsBack choice ⟨text, below ++ record :: above⟩ ⟨some record.before, below ++ above⟩

/-- How taking a change back leaves the desk. -/
structure RolledBack (identity : Identity) (number : Option Int) (desk : Desk)
    (ending : Except Failure Record × Desk) : Prop where
  sound : Sound ending.2
  rolls : RollsBack (.ofNumber? number) (desk.holding identity) (ending.2.holding identity)
  others : ∀ other, other ≠ identity → ending.2.holding other = desk.holding other
  found : (∃ record ∈ desk.stack identity, (Choice.ofNumber? number).admits record = true) →
    ∃ restored, ending.1 = .ok restored
  refused : (∀ record ∈ desk.stack identity, (Choice.ofNumber? number).admits record = false) →
    ending.2 = desk ∧ (ending.1 = .error (.noBackup identity (.ofNumber? number)) ∨
      ending.1 = .error .storage ∧ ∃ id ∈ number, Ledger.isComparable id = false)

variable {desk : Desk}

/-- The search for a committed backup changes nothing. It fails only for a number
that cannot be compared with others. -/
theorem perform_findCommitted_none {identity : Identity} {number : Option Int}
    (none : desk.ledger.latestUpdated? identity (.ofNumber? number) = none) :
    (findCommitted identity (.ofNumber? number)).perform desk = (.ok Option.none, desk) ∨
      (findCommitted identity (.ofNumber? number)).perform desk = (.error .storage, desk) ∧
        ∃ id ∈ number, Ledger.isComparable id = false := by
  cases number with
  | none =>
    left
    rw [Choice.ofNumber?] at none ⊢
    simp only [findCommitted, Action.perform_bind, Action.perform_get, none]
    rfl
  | some id =>
    rw [Choice.ofNumber?] at none ⊢
    simp only [findCommitted, Action.perform_bind_ok (Action.perform_get desk), none]
    rcases perform_checkNumber id (!(desk.ledger.committed identity).isEmpty) desk with
      checked | ⟨checked, unknown⟩
    · left
      rw [Action.perform_bind_ok checked]
      rfl
    · right
      exact ⟨Action.perform_bind_error checked _, id, rfl, unknown⟩

/-- The newest record on which a choice may fall is found. -/
theorem perform_findCommitted_some {identity : Identity} {choice : Choice} {record : Record}
    (found : desk.ledger.latestUpdated? identity choice = some record) :
    (findCommitted identity choice).perform desk = (.ok (some record), desk) := by
  simp only [findCommitted, Action.perform_bind, Action.perform_get, found]
  rfl

/-- Taking back the newest change of a routine, or that of a number, puts the text of the record
back and takes it off the stack, or does nothing. -/
theorem Sound.perform_rollBack (sound : Sound desk) (identity : Identity) (number : Option Int) :
    RolledBack identity number desk ((rollBack identity (.ofNumber? number)).perform desk) := by
  rw [rollBack, rollBackBy]
  cases found : desk.ledger.latestUpdated? identity (.ofNumber? number) with
  | none =>
    have none := Ledger.latestUpdated?_eq_none.mp found
    have ending {result : Except Failure Record}
        (refusal : result = .error (.noBackup identity (.ofNumber? number)) ∨
          result = .error .storage ∧ ∃ id ∈ number, Ledger.isComparable id = false) :
        RolledBack identity number desk (result, desk) := by
      refine ⟨sound, .absent none, fun _ _ => rfl, ?_, fun _ => ⟨rfl, refusal⟩⟩
      rintro ⟨record, member, admitted⟩
      rw [none record member] at admitted
      cases admitted
    rcases perform_findCommitted_none found with searched | ⟨searched, unknown⟩
    · rw [Action.perform_bind_ok searched]
      exact ending (.inl rfl)
    · rw [Action.perform_bind_error searched]
      exact ending (.inr ⟨rfl, unknown⟩)
  | some record =>
    obtain ⟨below, above, stack, admitted, newest⟩ := Ledger.latestUpdated?_eq_some found
    have stackHere : desk.stack identity = below ++ record :: above := stack
    obtain ⟨old, stored⟩ := sound.stored identity (by simp [stackHere])
    obtain ⟨written, wrote, soundWritten, ledger, texts⟩ :=
      sound.perform_writeRoutine stored record.before
    have stackNow : written.stack identity = below ++ record :: above := by
      rw [Desk.stack, ledger]
      exact stack
    obtain ⟨restored, after, marked, soundAfter, shelf, stackOf⟩ :=
      soundWritten.perform_markRolledBack stackNow
    rw [Action.perform_bind_ok (perform_findCommitted_some found)]
    simp only [Action.perform_bind_ok wrote, Action.perform_bind_ok marked,
      Action.perform_bind_ok (perform_say _ _ _ _), Action.perform_pure]
    have held (other : Identity) : after.holding other =
        if other = identity then ⟨some record.before, below ++ above⟩ else desk.holding other := by
      have sameText : after.text? other = written.text? other := text?_congr shelf other
      have sameStack : written.stack other = desk.stack other := by
        rw [Desk.stack, ledger, Desk.stack]
      rw [Desk.holding, sameText, texts, stackOf, sameStack]
      split <;> rfl
    refine ⟨soundAfter.logged _, ?_, ?_, fun _ => ⟨restored, rfl⟩, ?_⟩
    · have here : desk.holding identity = ⟨desk.text? identity, below ++ record :: above⟩ := by
        rw [Desk.holding, stackHere]
      have there := held identity
      rw [if_pos rfl] at there
      rw [here]
      exact there ▸ .popped admitted newest
    · intro other distinct
      exact (held other).trans (if_neg distinct)
    · intro none
      have refused := none record (by simp [stackHere])
      rw [admitted] at refused
      cases refused

/-! ### Runs -/

/-- What can be asked for in a run. -/
inductive Task where
  | put (identity : Identity) (text : Text) (kind : Option Text)
  | write (identity : Identity) (text : Text)
  | change (manner : Manner) (identity : Identity)
  | changeAll (manner : Manner) (size : Int) (identities : List Identity)
  | rollBack (identity : Identity) (number : Option Int)

/-- The desk after a task at the given time, whether the task succeeds or fails. -/
def Desk.carryOut (desk : Desk) (now : Stamp) : Task → Desk
  | .put identity text kind => ((putRoutine identity text kind).perform { desk with now }).2
  | .write identity text => ((writeRoutine identity text).perform { desk with now }).2
  | .change manner identity => ((changeRoutine manner identity).perform { desk with now }).2
  | .changeAll manner size identities =>
    ((changeAll manner size identities).perform { desk with now }).2
  | .rollBack identity number =>
    ((rollBack identity (.ofNumber? number)).perform { desk with now }).2

/-- The desk after a run: tasks with the times at which they are carried out. -/
def Desk.work (desk : Desk) (tasks : List (Stamp × Task)) : Desk :=
  tasks.foldl (fun desk task => desk.carryOut task.1 task.2) desk

/-- What a task makes of the text and the stack of a routine. A routine that the task
does not name keeps both. -/
def Task.Makes (identity : Identity) : Task → Holding → Holding → Prop
  | .put named text _, before, after =>
    after = if identity = named then ⟨some text, before.stack⟩ else before
  | .write named text, before, after =>
    after = if identity = named then ⟨before.text.map fun _ => text, before.stack⟩ else before
  | .change manner named, before, after =>
    if identity = named then Changes manner before after else after = before
  | .changeAll manner size named, before, after =>
    ChangesTimes manner (if size < 0 then 0 else named.count identity) before after
  | .rollBack named number, before, after =>
    if identity = named then RollsBack (.ofNumber? number) before after else after = before

/-- One task keeps the desk sound and does to every routine what it says. There is one case for
each task, and only the routine of the task can be touched. -/
theorem Sound.carryOut (sound : Sound desk) (now : Stamp) (task : Task) :
    Sound (desk.carryOut now task) ∧
      ∀ identity, task.Makes identity (desk.holding identity)
        ((desk.carryOut now task).holding identity) := by
  have soundNow := sound.atTime now
  cases task with
  | put named text kind =>
    obtain ⟨after, performed, soundAfter, ledger, texts⟩ := soundNow.perform_putRoutine named text kind
    simp only [Desk.carryOut, performed]
    refine ⟨soundAfter, ?_⟩
    intro identity
    simp only [Task.Makes, Desk.holding, texts, Desk.stack, ledger]
    split <;> rfl
  | write named text =>
    cases stored : desk.text? named with
    | none =>
      have performed := soundNow.perform_writeRoutine_absent stored text
      simp only [Desk.carryOut, performed]
      refine ⟨soundNow, ?_⟩
      intro identity
      simp only [Task.Makes]
      split
      · rename_i same
        have absent : (desk.holding identity).text = none := same ▸ stored
        rw [absent, Option.map_none, ← absent]
        rfl
      · rfl
    | some old =>
      obtain ⟨after, performed, soundAfter, ledger, texts⟩ := soundNow.perform_writeRoutine stored text
      simp only [Desk.carryOut, performed]
      refine ⟨soundAfter, ?_⟩
      intro identity
      simp only [Task.Makes, Desk.holding, texts, Desk.stack, ledger]
      split
      · rename_i same
        rw [same, stored, Option.map_some]
      · rfl
  | change manner named =>
    have changed := soundNow.perform_changeRoutine manner named
    refine ⟨changed.sound, ?_⟩
    intro identity
    simp only [Task.Makes]
    split
    · rename_i same
      rw [same]
      exact changed.changes
    · rename_i distinct
      exact changed.others identity distinct
  | changeAll manner size named => exact soundNow.perform_changeAll manner size named
  | rollBack named number =>
    have rolled := soundNow.perform_rollBack named number
    refine ⟨rolled.sound, ?_⟩
    intro identity
    simp only [Task.Makes]
    split
    · rename_i same
      rw [same]
      exact rolled.rolls
    · rename_i distinct
      exact rolled.others identity distinct

/-- A desk stays sound over any tasks, by induction over them. -/
theorem Sound.work (sound : Sound desk) (tasks : List (Stamp × Task)) : Sound (desk.work tasks) := by
  induction tasks generalizing desk with
  | nil => exact sound
  | cons task tasks inductionHypothesis =>
    exact inductionHypothesis (sound.carryOut task.1 task.2).1

/-! ### Undoing a run -/

/-- The stack leads from the text back to the first one: each backup holds the text
before its commit and the text after it, which is the one that the next commit found. -/
inductive Linked (first : Option Text) : Holding → Prop where
  | start : Linked first ⟨first, []⟩
  | commit {text new : Text} {stack : List Record} {record : Record}
      (earlier : Linked first ⟨some text, stack⟩) (before : record.before = text)
      (after : record.after = some new) : Linked first ⟨some new, stack ++ [record]⟩

/-- The task makes a backup of whatever it commits, and takes back only the newest
change. -/
def Task.IsUndoable : Task → Prop
  | .put .. => False
  | .write .. => False
  | .change manner _ => manner.preview = true ∨ manner.backup = true
  | .changeAll manner _ _ => manner.preview = true ∨ manner.backup = true
  | .rollBack _ number => number = none

/-- A change keeps a stack linked: its backup holds the text that was there, and its text is the
one that is there now. -/
theorem Linked.changes {first : Option Text} {manner : Manner} {before after : Holding}
    (linked : Linked first before) (changes : Changes manner before after)
    (tracked : manner.preview = true ∨ manner.backup = true) : Linked first after := by
  cases changes with
  | idle => exact linked
  | pushed committed backup before after => exact .commit linked before after
  | untracked committed backup =>
    rcases tracked with preview | tracked
    · simp [Manner.commits, preview] at committed
    · rw [backup] at tracked
      cases tracked

/-- Several changes keep a stack linked, by induction over them. -/
theorem Linked.changesTimes {first : Option Text} {manner : Manner} {times : Nat}
    {before after : Holding} (linked : Linked first before)
    (changes : ChangesTimes manner times before after)
    (tracked : manner.preview = true ∨ manner.backup = true) : Linked first after := by
  induction changes with
  | none => exact linked
  | more change _ inductionHypothesis => exact inductionHypothesis (linked.changes change tracked)

/-- Taking back the newest change goes one link back: its record is the last link, and the text
that it holds is the one before. -/
theorem Linked.rollsBack {first : Option Text} {before after : Holding}
    (linked : Linked first before) (rolls : RollsBack .newest before after) : Linked first after := by
  cases rolls with
  | absent => exact linked
  | @popped text below above record admitted newest =>
    have top : above = [] := by
      cases above with
      | nil => rfl
      | cons other above => exact absurd (newest other (by simp)) (by simp [Choice.admits])
    subst top
    generalize stacked : below ++ [record] = stack at linked
    cases linked with
    | start => simp at stacked
    | commit earlier before after =>
      obtain ⟨rfl, same⟩ := List.append_inj' stacked rfl
      cases same
      rw [List.append_nil, before]
      exact earlier

/-- An undoable task keeps a stack linked: it changes the routine, takes its newest change back,
or is about another one. -/
theorem Linked.makes {first : Option Text} {before after : Holding} (linked : Linked first before)
    {identity : Identity} {task : Task} (makes : task.Makes identity before after)
    (undoable : task.IsUndoable) : Linked first after := by
  cases task with
  | put => exact undoable.elim
  | write => exact undoable.elim
  | change manner named =>
    simp only [Task.Makes] at makes
    split at makes
    · exact linked.changes makes undoable
    · rw [makes]
      exact linked
  | changeAll manner size named => exact linked.changesTimes makes undoable
  | rollBack named number =>
    cases undoable
    simp only [Task.Makes] at makes
    split at makes
    · exact linked.rollsBack makes
    · rw [makes]
      exact linked

/-- A run that can be undone keeps the stacks linked to the same first texts. -/
theorem Linked.work {first : Option Text} {identity : Identity} (sound : Sound desk)
    (linked : Linked first (desk.holding identity)) {tasks : List (Stamp × Task)}
    (undoable : ∀ task ∈ tasks, task.2.IsUndoable) :
    Linked first ((desk.work tasks).holding identity) := by
  induction tasks generalizing desk with
  | nil => exact linked
  | cons task tasks inductionHypothesis =>
    obtain ⟨soundAfter, makes⟩ := sound.carryOut task.1 task.2
    refine inductionHypothesis soundAfter ?_ fun later member => undoable later (by simp [member])
    exact linked.makes (makes identity) (undoable task (by simp))

/-- To take the newest change back makes the stack one shorter, unless it is empty: the newest
record of a stack that is not empty can be chosen. -/
theorem RollsBack.length_newest {before after : Holding} (rolls : RollsBack .newest before after) :
    after.stack.length = before.stack.length - 1 := by
  cases rolls with
  | absent none =>
    have empty : before.stack = [] := by
      cases stack : before.stack with
      | nil => rfl
      | cons record stack => exact absurd (none record (by simp [*])) (by simp [Choice.admits])
    simp [empty]
  | popped => simp

/-- Every change that is taken back makes the stack shorter, until it is empty. The induction is
over the tasks. -/
theorem Sound.length_rollBacks (sound : Sound desk) (identity : Identity) (stamps : List Stamp) :
    ((desk.work (stamps.map fun stamp => (stamp, .rollBack identity none))).stack identity).length =
      (desk.stack identity).length - stamps.length := by
  induction stamps generalizing desk with
  | nil => rfl
  | cons stamp stamps inductionHypothesis =>
    obtain ⟨soundAfter, makes⟩ := sound.carryOut stamp (.rollBack identity none)
    have rolls := makes identity
    simp only [Task.Makes, if_true] at rolls
    have shorter : ((desk.carryOut stamp (.rollBack identity none)).stack identity).length =
        (desk.stack identity).length - 1 := rolls.length_newest
    have later := inductionHypothesis soundAfter
    rw [shorter] at later
    rw [List.length_cons, Nat.add_comm, ← Nat.sub_sub]
    exact later

/-- Only what is not on the stack is refused. A record of the stack that the choice admits would
have been restored. -/
theorem RolledBack.not_admitted {identity : Identity} {number : Option Int}
    {ending : Except Failure Record × Desk} (rolled : RolledBack identity number desk ending)
    {failure : Failure} (failed : ending.1 = .error failure) :
    ∀ record ∈ desk.stack identity, (Choice.ofNumber? number).admits record = false := by
  intro record member
  cases admitted : (Choice.ofNumber? number).admits record with
  | false => rfl
  | true =>
    obtain ⟨restored, success⟩ := rolled.found ⟨record, member, admitted⟩
    rw [success] at failed
    cases failed

/-- A change is not found exactly if no backup on the stack is meant, unless the
database cannot compare the number. -/
theorem RolledBack.noBackup_iff {identity : Identity} {number : Option Int}
    {ending : Except Failure Record × Desk} (rolled : RolledBack identity number desk ending)
    (working : ending.1 ≠ .error .storage) :
    ending.1 = .error (.noBackup identity (.ofNumber? number)) ↔
      ∀ record ∈ desk.stack identity, (Choice.ofNumber? number).admits record = false := by
  constructor
  · exact rolled.not_admitted
  · intro none
    rcases (rolled.refused none).2 with missing | ⟨storage, _⟩
    · exact missing
    · exact absurd storage working

/-- Whatever is refused has no effect. Where the storage is the reason, the number is one that
cannot be compared. -/
theorem RolledBack.unchanged {identity : Identity} {number : Option Int}
    {ending : Except Failure Record × Desk} (rolled : RolledBack identity number desk ending)
    {failure : Failure} (failed : ending.1 = .error failure) :
    ending.2 = desk ∧ (failure = .storage → ∃ id ∈ number, Ledger.isComparable id = false) := by
  obtain ⟨kept, cause⟩ := rolled.refused (rolled.not_admitted failed)
  refine ⟨kept, ?_⟩
  rintro rfl
  rcases cause with missing | ⟨_, unknown⟩
  · rw [missing] at failed
    cases failed
  · exact unknown

/-- Nothing can be taken back exactly if the stack is empty. To look for the newest record is
never refused by the database. -/
theorem Sound.noBackup_newest_iff (sound : Sound desk) (identity : Identity) :
    ((rollBack identity .newest).perform desk).1 = .error (.noBackup identity .newest) ↔
      desk.stack identity = [] := by
  have rolled : RolledBack identity none desk ((rollBack identity .newest).perform desk) :=
    sound.perform_rollBack identity none
  have working : ((rollBack identity .newest).perform desk).1 ≠ .error .storage := by
    intro storage
    obtain ⟨id, given, _⟩ := (rolled.unchanged storage).2 rfl
    cases given
  refine (rolled.noBackup_iff working).trans ?_
  simp [Choice.ofNumber?, Choice.admits, List.eq_nil_iff_forall_not_mem]

/-- What holds of texts and stacks after a run. -/
structure StackDiscipline (start : Desk) (tasks : List (Stamp × Task)) : Prop where
  /-- The stacks are in the order of their numbers. -/
  increasing : ∀ identity,
    ((start.work tasks).stack identity).Pairwise fun older newer => older.id < newer.id
  /-- The next task does to each routine what it says, and nothing to the others. -/
  makes : ∀ now (task : Task) identity, task.Makes identity ((start.work tasks).holding identity)
    (((start.work tasks).carryOut now task).holding identity)
  /-- A change that can be committed succeeds. -/
  updates : ∀ now manner identity text, (start.work tasks).text? identity = some text →
    manner.commits text = true →
    ∃ outcome, ((changeRoutine manner identity).perform { start.work tasks with now }).1 =
      .ok outcome ∧ outcome.fate = .updated
  /-- A change that is to be taken back is not found exactly if the stack does not hold
  it, and then nothing changes. Only a number beyond what the database can compare is
  refused in another way. -/
  refuses : ∀ now identity number,
    let ending := (rollBack identity (.ofNumber? number)).perform { start.work tasks with now }
    (ending.1 ≠ .error .storage →
      (ending.1 = .error (.noBackup identity (.ofNumber? number)) ↔
        ∀ record ∈ (start.work tasks).stack identity,
          (Choice.ofNumber? number).admits record = false)) ∧
      ∀ failure, ending.1 = .error failure → ending.2 = { start.work tasks with now } ∧
        (failure = .storage → ∃ id ∈ number, Ledger.isComparable id = false)
  /-- A run from an empty ledger that can be undone is undone by taking changes back
  until none is found, which is so after as many times as the stack is high. -/
  restores : start.ledger.records = [] → (∀ task ∈ tasks, task.2.IsUndoable) → ∀ identity,
    Linked (start.text? identity) ((start.work tasks).holding identity) ∧
      ∀ (stamps : List Stamp) now,
        let rolled := (start.work tasks).work
          (stamps.map fun stamp => (stamp, .rollBack identity none))
        let result := ((rollBack identity .newest).perform { rolled with now }).1
        (result = .error (.noBackup identity .newest) ↔
          ((start.work tasks).stack identity).length ≤ stamps.length) ∧
        (result = .error (.noBackup identity .newest) →
          rolled.text? identity = start.text? identity)

/-- The committed backups of every routine are a stack on which the tasks of any run push and pop,
and which undoes the run. The run may begin at any sound desk, in particular with an empty ledger
(`Sound.ofEmpty`). One task is one step on the stacks, and every text on a stack is the one that
was there before its change. -/
theorem rollBack_refines_stack {start : Desk} (sound : Sound start) (tasks : List (Stamp × Task)) :
    StackDiscipline start tasks := by
  have soundNow := sound.work tasks
  refine ⟨soundNow.orderly.committed, ?_, ?_, ?_, ?_⟩
  · intro now task identity
    exact (soundNow.carryOut now task).2 identity
  · intro now manner identity text stored committed
    exact ((soundNow.atTime now).perform_changeRoutine manner identity).answer text stored committed
  · intro now identity number
    have rolled := (soundNow.atTime now).perform_rollBack identity number
    exact ⟨rolled.noBackup_iff, fun failure failed => rolled.unchanged failed⟩
  · intro empty undoable identity
    have bottom : start.holding identity = ⟨start.text? identity, []⟩ := by
      simp [Desk.holding, Desk.stack, Ledger.committed_eq, empty]
    have linked : Linked (start.text? identity) ((start.work tasks).holding identity) :=
      Linked.work sound (bottom ▸ .start) undoable
    refine ⟨linked, ?_⟩
    intro stamps now rolled result
    have soundRolled : Sound rolled := soundNow.work _
    have missing : result = .error (.noBackup identity .newest) ↔ rolled.stack identity = [] :=
      (soundRolled.atTime now).noBackup_newest_iff identity
    constructor
    · rw [missing, ← List.length_eq_zero_iff, soundNow.length_rollBacks]
      omega
    · intro refused
      have undone : Linked (start.text? identity) (rolled.holding identity) := by
        refine Linked.work soundNow linked ?_
        intro task member
        obtain ⟨stamp, _, rfl⟩ := List.mem_map.mp member
        rfl
      rw [Desk.holding, missing.mp refused] at undone
      generalize text : rolled.text? identity = last at undone
      generalize stack : ([] : List Record) = empty at undone
      cases undone with
      | start => rfl
      | commit => simp at stack

/-- A routine is changed twice, once in a preview, and the change is taken back. -/
theorem rollBack_refines_stack_preview :
    let routine : Identity := ⟨['d'], ['p'], by decide, by decide⟩
    let start : Desk := { shelf := .table (some [⟨routine, [], "RAISERROR(1)".toList⟩]) }
    let tasks : List (Stamp × Task) :=
      [([], .change { rules := [], preview := true } routine),
        ([], .change { rules := [], preview := false } routine)]
    Sound start ∧ start.ledger.records = [] ∧ (∀ task ∈ tasks, task.2.IsUndoable) ∧
      (start.work tasks).ledger.records.length = 2 ∧ ((start.work tasks).stack routine).length = 1 ∧
      StackDiscipline start tasks := by
  intro routine start tasks
  have sound : Sound start := .ofEmpty ⟨_, rfl⟩ ⟨_, rfl⟩ rfl rfl
  refine ⟨sound, rfl, ?_, by cbv, by cbv, rollBack_refines_stack sound tasks⟩
  simp [tasks, Task.IsUndoable]

end SqlRenewal
