import SqlRenewal.Proofs.Work.BackupFirst
import SqlRenewal.Proofs.Work.Errands
import SqlRenewal.Proofs.Work.UndoStack

/-!
# Taking a change back by halves

A change is taken back in two steps at two places: the old text is written, and then its
record is marked. Where no record is found or the text cannot be written, nothing has
happened. Where the record cannot be marked, the text has been written all the same, and
the record goes on saying that the change is there. This is the only way in which taking a
change back can fail after it has had an effect.

A missing table of events is one reason why a record cannot be marked. Others lie with the
database, and whether there is one is a parameter of the run here.
-/
namespace SqlRenewal

/-! ### A record that cannot be marked -/

/-- Notes that the change of a record was taken back, unless the database refuses. -/
def markRolledBackUnless (refused : Bool) (id : Int) : Action Record := do
  if refused then throw (.ledger (.mark id .rolledBack))
  markRolledBack id

/-- Takes a change back, where the database may refuse the mark. -/
def rollBackUnless (refused : Bool) : Identity → Choice → Action Record :=
  rollBackBy (markRolledBackUnless refused)

/-- A step of a record cannot be noted. -/
def Desk.RefusesMarks (desk : Desk) (refused : Bool) : Prop :=
  refused = true ∨ desk.ledger.events = none

/-- Without events the record of a choice keeps its stage: it is found and could take its step,
but the step cannot be noted. -/
theorem Ledger.Numbered.advance_unnoted {ledger : Ledger} (numbered : ledger.Numbered)
    (unnoted : ledger.events = none) {identity : Identity} {choice : Choice} {record : Record}
    (found : ledger.latestUpdated? identity choice = some record) (now : Stamp) :
    ledger.advance now record.id .rolledBack = .error .noEvents := by
  obtain ⟨below, above, stack, _⟩ := Ledger.latestUpdated?_eq_some found
  obtain ⟨front, rest, split, _, _, status, _⟩ := Ledger.committed_split stack
  have orderly : ledger.restore.Orderly := ⟨⟨_, rfl⟩, numbered.increasing, numbered.bounded⟩
  have here : ledger.find? record.id = some record := orderly.find? split
  obtain ⟨stage, next⟩ : ∃ stage, record.stage.step? now .rolledBack = some stage := by
    apply Stage.exists_step?_iff.mpr
    rw [Record.status] at status
    rw [status]
    rfl
  simp only [Ledger.advance, here, next, unnoted]

variable {desk : Desk} {refused : Bool} {identity : Identity} {choice : Choice} {record : Record}

/-- A mark that cannot be made fails with the failure of the ledger, and leaves the desk as it
is. -/
theorem perform_markRolledBack_refused (numbered : desk.ledger.Numbered)
    (found : desk.ledger.latestUpdated? identity choice = some record)
    (refuses : desk.RefusesMarks refused) :
    (markRolledBackUnless refused record.id).perform desk =
      (.error (.ledger (.mark record.id .rolledBack)), desk) := by
  cases refused with
  | true => rfl
  | false =>
    have unnoted : desk.ledger.events = none := by simpa [Desk.RefusesMarks] using refuses
    have stopped := numbered.advance_unnoted unnoted found desk.now
    exact perform_advanceRecord_unnoted stopped

/-- A mark that can be made is, because a committed record has this step as its next. -/
theorem perform_markRolledBack_noted (numbered : desk.ledger.Numbered)
    (found : desk.ledger.latestUpdated? identity choice = some record)
    (able : ¬ desk.RefusesMarks refused) :
    ∃ ledger stage, (markRolledBackUnless refused record.id).perform desk =
      (.ok { record with stage }, { desk with ledger }) := by
  rw [Desk.RefusesMarks, not_or] at able
  obtain ⟨allowed, present⟩ := able
  have noted := Option.ne_none_iff_exists'.mp present
  have orderly : desk.ledger.Orderly := ⟨noted, numbered.increasing, numbered.bounded⟩
  obtain ⟨ledger, stage, stepped, _⟩ := orderly.advance_latest found desk.now
  refine ⟨ledger, stage, ?_⟩
  rw [markRolledBackUnless, if_neg allowed]
  exact perform_advanceRecord_ok stepped

/-! ### All ways to end -/

/-- The text of a record was written, and nothing else was done: the record still says that
its change is there. -/
structure HalfTakenBack (desk after : Desk) (identity : Identity) (record : Record) : Prop where
  stores : after.Stores identity record.before
  others : ∀ other, ¬ desk.Shares identity other → after.read other = desk.read other
  rest : after = { desk with shelf := after.shelf, files := after.files }

/-- How taking a change back ends, for every choice of what fails. -/
structure TakesBack (refused : Bool) (identity : Identity) (choice : Choice) (desk : Desk)
    (ending : Except Failure Record × Desk) : Prop where
  /-- No record: nothing happens. -/
  absent : desk.ledger.latestUpdated? identity choice = none →
    (ending.1 = .error (.noBackup identity choice) ∨ ending.1 = .error .storage) ∧ ending.2 = desk
  /-- The text cannot be written: nothing happens. -/
  unwritten : ∀ record failure, desk.ledger.latestUpdated? identity choice = some record →
    (writeRoutine identity record.before).perform desk = (.error failure, desk) →
    ending = (.error failure, desk)
  /-- The record cannot be marked: the text has been written. -/
  half : ∀ record written, desk.ledger.latestUpdated? identity choice = some record →
    (writeRoutine identity record.before).perform desk = (.ok ⟨⟩, written) →
    desk.RefusesMarks refused →
    ending = (.error (.ledger (.mark record.id .rolledBack)), written) ∧
      HalfTakenBack desk written identity record
  /-- Nothing fails: the text is there, and its record is marked. -/
  whole : ∀ record written, desk.ledger.latestUpdated? identity choice = some record →
    (writeRoutine identity record.before).perform desk = (.ok ⟨⟩, written) →
    ¬ desk.RefusesMarks refused →
    ∃ stage, ending.1 = .ok { record with stage } ∧ ending.2.Stores identity record.before
  /-- A failure leaves all as it was, except in the one case. -/
  failed : ∀ failure, ending.1 = .error failure → ending.2.ledger = desk.ledger ∧
    (ending.2 = desk ∨ ∃ record, desk.ledger.latestUpdated? identity choice = some record ∧
      failure = .ledger (.mark record.id .rolledBack) ∧ desk.RefusesMarks refused ∧
      HalfTakenBack desk ending.2 identity record)

/-! ### Case by case -/

/-- Without a record the search ends in none, or is refused by the database, which cannot compare
every number. -/
theorem Ledger.sought_of_none {ledger : Ledger}
    (absent : ledger.latestUpdated? identity choice = none) :
    ledger.sought identity choice = .ok none ∨ ledger.sought identity choice = .error .storage := by
  cases choice with
  | newest =>
    left
    simp only [sought, absent]
  | numbered id =>
    simp only [sought, absent]
    split
    · exact .inl rfl
    · exact .inr rfl
  | unnumbered =>
    simp only [sought, absent]
    split
    · exact .inr rfl
    · exact .inl rfl

/-- Without a record nothing is taken back, and nothing happens: the search ends the operation,
which has only read until then. -/
theorem perform_rollBack_absent (refused : Bool)
    (absent : desk.ledger.latestUpdated? identity choice = none) :
    ∃ failure, (rollBackUnless refused identity choice).perform desk = (.error failure, desk) ∧
      (failure = .noBackup identity choice ∨ failure = .storage) := by
  have searched := perform_findCommitted identity choice desk
  rw [rollBackUnless, rollBackBy]
  rcases Ledger.sought_of_none absent with unfound | stopped
  · rw [unfound] at searched
    rw [Action.perform_bind_ok searched]
    exact ⟨_, rfl, .inl rfl⟩
  · rw [stopped] at searched
    rw [Action.perform_bind_error searched]
    exact ⟨_, rfl, .inr rfl⟩

/-- Where the text cannot be written the record is not marked, because the text comes first. -/
theorem perform_rollBack_unwritten (refused : Bool)
    (found : desk.ledger.latestUpdated? identity choice = some record) {failure : Failure}
    (unwritten : (writeRoutine identity record.before).perform desk = (.error failure, desk)) :
    (rollBackUnless refused identity choice).perform desk = (.error failure, desk) := by
  rw [rollBackUnless, rollBackBy, Action.perform_bind_ok (perform_findCommitted_some found)]
  exact Action.perform_bind_error unwritten _

/-- Writing the text has no part in what is marked. -/
theorem found_in_written {written : Desk} {text : Text}
    (wrote : (writeRoutine identity text).perform desk = (.ok ⟨⟩, written))
    (found : desk.ledger.latestUpdated? identity choice = some record) :
    written.ledger.latestUpdated? identity choice = some record := by
  rw [(rewrites_of_written wrote).ledger_eq]
  exact found

/-- Writing a text has no part in whether marks are refused. -/
theorem refusesMarks_written {written : Desk} {text : Text}
    (wrote : (writeRoutine identity text).perform desk = (.ok ⟨⟩, written)) :
    written.RefusesMarks refused ↔ desk.RefusesMarks refused := by
  rw [Desk.RefusesMarks, Desk.RefusesMarks, (rewrites_of_written wrote).ledger_eq]

/-- Where the record cannot be marked, the text has been written: the failure comes behind it, and
nothing takes it back. -/
theorem perform_rollBack_half {written : Desk} (numbered : desk.ledger.Numbered)
    (found : desk.ledger.latestUpdated? identity choice = some record)
    (wrote : (writeRoutine identity record.before).perform desk = (.ok ⟨⟩, written))
    (refuses : desk.RefusesMarks refused) :
    (rollBackUnless refused identity choice).perform desk =
      (.error (.ledger (.mark record.id .rolledBack)), written) := by
  rw [← (rewrites_of_written wrote).ledger_eq] at numbered
  have marked := perform_markRolledBack_refused numbered (found_in_written wrote found)
    ((refusesMarks_written wrote).mpr refuses)
  rw [rollBackUnless, rollBackBy, Action.perform_bind_ok (perform_findCommitted_some found)]
  simp only [Action.perform_bind_ok wrote, Action.perform_bind_error marked]

/-- Where nothing fails, the text is written and the record is marked. Writing the text leaves the
ledger alone, so the record is found again for its mark. -/
theorem perform_rollBack_whole {written : Desk} (numbered : desk.ledger.Numbered)
    (found : desk.ledger.latestUpdated? identity choice = some record)
    (wrote : (writeRoutine identity record.before).perform desk = (.ok ⟨⟩, written))
    (able : ¬ desk.RefusesMarks refused) :
    ∃ stage after lines, (rollBackUnless refused identity choice).perform desk =
      (.ok { record with stage }, ({ written with ledger := after } : Desk).logged lines) := by
  rw [← (rewrites_of_written wrote).ledger_eq] at numbered
  rw [← refusesMarks_written wrote] at able
  obtain ⟨after, stage, marked⟩ :=
    perform_markRolledBack_noted numbered (found_in_written wrote found) able
  rw [rollBackUnless, rollBackBy, Action.perform_bind_ok (perform_findCommitted_some found)]
  simp only [Action.perform_bind_ok wrote, Action.perform_bind_ok marked,
    Action.perform_bind_ok (perform_say _ _ _ _)]
  exact ⟨stage, after, _, rfl⟩

/-! ### The whole -/

/-- To write the text of a record is to take its change back by half. -/
theorem Desk.Rewrites.halfTakenBack {written : Desk} {text : Text}
    (rewrites : desk.Rewrites written identity text record.before) :
    HalfTakenBack desk written identity record :=
  ⟨rewrites.stores, rewrites.others, rewrites.rest⟩

/-- A change that cannot be taken back in whole is taken back by half, or not at all. The cases
are the steps at which it can stop, each with what has been done by then. -/
theorem perform_rollBackUnless (numbered : desk.ledger.Numbered) (refused : Bool)
    (identity : Identity) (choice : Choice) :
    TakesBack refused identity choice desk ((rollBackUnless refused identity choice).perform desk) where
  absent absent := by
    obtain ⟨failure, performed, cause⟩ := perform_rollBack_absent refused absent
    rw [performed]
    exact ⟨cause.imp (congrArg _) (congrArg _), rfl⟩
  unwritten record failure found unwritten := perform_rollBack_unwritten refused found unwritten
  half record written found wrote refuses :=
    ⟨perform_rollBack_half numbered found wrote refuses, (rewrites_of_written wrote).halfTakenBack⟩
  whole record written found wrote able := by
    obtain ⟨stage, after, lines, performed⟩ := perform_rollBack_whole numbered found wrote able
    rw [performed]
    exact ⟨stage, rfl, (rewrites_of_written wrote).stores⟩
  failed failure fails := by
    cases found : desk.ledger.latestUpdated? identity choice with
    | none =>
      obtain ⟨_, performed, _⟩ := perform_rollBack_absent refused found
      rw [performed]
      exact ⟨rfl, .inl rfl⟩
    | some record =>
      rcases perform_writeRoutine_cases identity record.before desk with
        ⟨_, unwritten⟩ | ⟨written, wrote, rewrites⟩
      · rw [perform_rollBack_unwritten refused found unwritten]
        exact ⟨rfl, .inl rfl⟩
      · by_cases refuses : desk.RefusesMarks refused
        · rw [perform_rollBack_half numbered found wrote refuses] at fails ⊢
          exact ⟨rewrites.ledger_eq, .inr ⟨record, rfl, (Except.error.inj fails).symm, refuses,
            rewrites.halfTakenBack⟩⟩
        · obtain ⟨_, _, _, performed⟩ := perform_rollBack_whole numbered found wrote refuses
          rw [performed] at fails
          cases fails

/-- Taking a change back has an effect and fails only if the text was written and its record
cannot be marked. Where the database does not refuse the mark, it is the plain operation. -/
theorem rollBackUnless_takesBack (numbered : desk.ledger.Numbered) (refused : Bool)
    (identity : Identity) (choice : Choice) :
    TakesBack refused identity choice desk ((rollBackUnless refused identity choice).perform desk) ∧
      rollBackUnless false = rollBack :=
  ⟨perform_rollBackUnless numbered refused identity choice, rfl⟩

/-- A table of events that is missing: the text is as it was before the change, and the
record still says that the change is there. -/
theorem rollBackUnless_takesBack_half :
    let routine : Identity := ⟨['d'], ['p'], by decide, by decide⟩
    let record : Record := ⟨1, routine, ['a'], some ['b'], [], .updated []⟩
    let desk : Desk :=
      { shelf := .table (some [⟨routine, [], ['b']⟩])
        ledger := { records := [record], events := none, lastRecord := 1, lastEvent := 2 } }
    let ending := (rollBackUnless false routine .newest).perform desk
    desk.ledger.Numbered ∧ TakesBack false routine .newest desk ending ∧
      ending.1 = .error (.ledger (.mark 1 .rolledBack)) ∧ ending.2.ledger = desk.ledger ∧
      HalfTakenBack desk ending.2 routine record := by
  intro routine record desk ending
  have numbered : desk.ledger.Numbered :=
    ⟨List.pairwise_singleton _ _, by simp [desk, record]⟩
  have first : TakesBack false routine .newest desk ending :=
    (rollBackUnless_takesBack numbered false routine .newest).1
  have found : desk.ledger.latestUpdated? routine .newest = some record := by decide
  obtain ⟨ended, half⟩ := first.half record _ found rfl (.inr rfl)
  refine ⟨numbered, first, congrArg Prod.fst ended, rfl, ?_⟩
  rw [ended]
  exact half

/-- Taking a change back fails, and the text is another one than before. -/
theorem rollBack_fails_with_effect :
    let routine : Identity := ⟨['d'], ['p'], by decide, by decide⟩
    let desk : Desk :=
      { shelf := .table (some [⟨routine, [], ";THROW 50000, 'An error occurred', 1".toList⟩])
        ledger :=
          { records := [⟨1, routine, "RAISERROR(1)".toList,
              some ";THROW 50000, 'An error occurred', 1".toList, [], .updated []⟩]
            events := none, lastRecord := 1, lastEvent := 2 } }
    let ending := (rollBack routine .newest).perform desk
    (∃ failure, ending.1 = .error failure) ∧
      desk.read routine = .ok ";THROW 50000, 'An error occurred', 1".toList ∧
      ending.2.read routine = .ok "RAISERROR(1)".toList ∧ ending.2.ledger = desk.ledger :=
  ⟨⟨_, rfl⟩, rfl, rfl, rfl⟩

end SqlRenewal
