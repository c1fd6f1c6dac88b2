import SqlRenewal.Proofs.Ledger.Chronicle
import SqlRenewal.Proofs.Work.Matching

/-!
# Runs at desks that match

A run asks for a preview, for changes, or for a change to be taken back. It is decided by
the names and the texts that are listed, and by what has been noted. Desks that match
therefore give the same answer to every run, a failure included, and match again
afterwards.
-/
namespace SqlRenewal

variable {desk desk' : Desk} {identity : Identity} {listed : List Identity}

/-! ### What a run sees -/

/-- The name and the text of a routine. -/
def Routine.content (routine : Routine) : Identity × Text :=
  (routine.identity, routine.text)

/-- The names and the texts decide what is picked. -/
theorem Scope.content_pick (scope : Scope) (routines : List Routine) :
    (scope.pick routines).map Routine.content = (routines.map Routine.content).filter fun content =>
      scope.admits content.1 && isLegacy content.2 := by
  rw [Scope.pick, List.filter_map]
  rfl

/-- The routines of a scope are chosen by their identities and texts. -/
theorem Scope.chosen_eq (scope : Scope) (routines : List Routine) :
    scope.chosen routines = ((scope.pick routines).map Routine.content).map Prod.fst := by
  rw [Scope.chosen, List.map_map]
  rfl

/-- The forms by name depend on identities and texts only. -/
theorem formsByName_eq (routines : List Routine) :
    formsByName routines = (routines.map Routine.content).foldl
      (fun forms content =>
        let found := foundForms content.2
        if found = [] then forms else assign content.1.qualified found forms) [] := by
  rw [List.foldl_map]
  rfl

/-- What a preview says about a name and a text. -/
def previewContent (rules : List Rule) (content : Identity × Text) : Except Failure Outcome :=
  if renewalOverflows rules content.2 then .error (.overflow ⟨⟩)
  else .ok
    { identity := content.1
      fate := if (renew rules content.2).changed then .previewed else .unchanged
      categories := foundCategories content.2
      flags := (renew rules content.2).flags }

/-- The preview of a routine is made of its identity and text, and only logs. It is stopped where
a rule overflows on the text. -/
theorem perform_previewRoutine (rules : List Rule) (routine : Routine) (desk : Desk) :
    ∃ lines, (previewRoutine rules routine).perform desk =
      (previewContent rules routine.content, desk.logged lines) := by
  obtain ⟨lines, renewed⟩ := perform_renewLogged rules routine.text desk
  refine ⟨lines, ?_⟩
  rw [previewRoutine, previewContent, Routine.content]
  by_cases overflows : renewalOverflows rules routine.text = true
  · rw [if_pos overflows] at renewed ⊢
    exact Action.perform_bind_error renewed _
  · rw [if_neg overflows] at renewed ⊢
    exact Action.perform_bind_ok renewed _

/-- So are the previews of several routines, by induction over them; the first overflow ends them
all. -/
theorem perform_mapM_previewRoutine (rules : List Rule) (routines : List Routine) (desk : Desk) :
    ∃ lines, (routines.mapM (previewRoutine rules)).perform desk =
      ((routines.map Routine.content).mapM (previewContent rules), desk.logged lines) := by
  induction routines generalizing desk with
  | nil => exact ⟨[], by rw [Desk.logged_nil]; rfl⟩
  | cons routine routines inductionHypothesis =>
    obtain ⟨lines, first⟩ := perform_previewRoutine rules routine desk
    obtain ⟨more, later⟩ := inductionHypothesis (desk.logged lines)
    rw [List.mapM_cons, List.map_cons, List.mapM_cons]
    cases answer : previewContent rules routine.content with
    | error failure =>
      rw [answer] at first
      exact ⟨lines, Action.perform_bind_error first _⟩
    | ok outcome =>
      rw [answer] at first
      refine ⟨lines ++ more, ?_⟩
      rw [Action.perform_bind_ok first]
      rw [Desk.logged_logged] at later
      cases answers : (routines.map Routine.content).mapM (previewContent rules) with
      | error failure =>
        rw [answers] at later
        exact Action.perform_bind_error later _
      | ok outcomes =>
        rw [answers] at later
        exact Action.perform_bind_ok later _

/-- A preview is decided by the names and the texts that are listed. -/
def previewAnswer (rules : List Rule) (scope : Scope) (routines : List Routine) :
    Except Failure Summary := do
  let outcomes ← ((scope.pick routines).map Routine.content).mapM (previewContent rules)
  return .ofPreview outcomes (formsByName (scope.pick routines))

/-- A preview of a scope answers from the routines that are listed, and only logs: first the
routines are picked out, and then each is previewed, up to the first that is stopped. -/
theorem perform_previewRun {routines : List Routine} (listing : desk.routines = .ok routines)
    (rules : List Rule) (scope : Scope) :
    ∃ lines, (previewRun rules scope).perform desk =
      (previewAnswer rules scope routines, desk.logged lines) := by
  have picked := perform_listRoutines scope desk
  rw [listing] at picked
  obtain ⟨lines, previewed⟩ := perform_mapM_previewRoutine rules (scope.pick routines) desk
  refine ⟨lines, ?_⟩
  rw [previewRun, Action.perform_bind_ok picked, previewAnswer]
  cases answers : ((scope.pick routines).map Routine.content).mapM (previewContent rules) with
  | error failure =>
    rw [answers] at previewed
    exact Action.perform_bind_error previewed _
  | ok outcomes =>
    rw [answers] at previewed
    exact Action.perform_bind_ok previewed _

/-! ### Taking a change back -/

/-- The committed record on which a choice falls, or why it cannot be looked for. -/
def Ledger.sought (ledger : Ledger) (identity : Identity) (choice : Choice) :
    Except Failure (Option Record) :=
  let compared := !(ledger.committed identity).isEmpty
  match ledger.latestUpdated? identity choice, choice with
  | some record, _ => .ok (some record)
  | none, .newest => .ok none
  | none, .numbered id =>
    if Ledger.isComparable id || (Ledger.hasRoom id && !compared) then .ok none
    else .error .storage
  | none, .unnumbered => if compared then .error .storage else .ok none

/-- The search for a committed backup changes nothing. The cases are the kinds of choices, some of
which the database refuses to compare. -/
theorem perform_findCommitted (identity : Identity) (choice : Choice) (desk : Desk) :
    (findCommitted identity choice).perform desk =
      (desk.ledger.sought identity choice, desk) := by
  rw [findCommitted, Action.perform_bind_ok (Action.perform_get desk)]
  simp only [Ledger.sought]
  cases desk.ledger.latestUpdated? identity choice with
  | some record => rfl
  | none =>
    cases choice with
    | newest => rfl
    | numbered id =>
      simp only [checkNumber]
      split <;> rfl
    | unnumbered =>
      simp only
      split <;> rfl

/-- The times of the records do not matter for the search: neither for what is found nor for
whether there is anything to compare with. -/
theorem Ledger.sought_timeless (ledger : Ledger) (identity : Identity) (choice : Choice) :
    ledger.timeless.sought identity choice =
      (ledger.sought identity choice).map (Option.map Record.timeless) := by
  have compared : (ledger.timeless.committed identity).isEmpty =
      (ledger.committed identity).isEmpty := by
    rw [committed_timeless, List.isEmpty_map]
  simp only [sought, latestUpdated?_timeless, compared]
  cases ledger.latestUpdated? identity choice with
  | some record => rfl
  | none =>
    cases choice with
    | newest => rfl
    | numbered id =>
      simp only [Option.map_none]
      split <;> rfl
    | unnumbered =>
      simp only [Option.map_none]
      split <;> rfl

/-- A record that is sought and found is the newest one on which the choice may fall. -/
theorem Ledger.sought_eq_some {ledger : Ledger} {choice : Choice} {record : Record}
    (found : ledger.sought identity choice = .ok (some record)) :
    ledger.latestUpdated? identity choice = some record := by
  cases latest : ledger.latestUpdated? identity choice with
  | some other =>
    simp only [sought, latest, Except.ok.injEq] at found
    exact found
  | none =>
    cases choice with
    | newest => simp [sought, latest] at found
    | numbered id =>
      simp only [sought, latest] at found
      split at found <;> cases found
    | unnumbered =>
      simp only [sought, latest] at found
      split at found <;> cases found

/-- The newest record of a choice can be taken back: it is committed, so the step is its next one,
and in an orderly ledger it can be noted. -/
theorem Ledger.Orderly.advance_latest {ledger : Ledger} (orderly : ledger.Orderly) {choice : Choice}
    {record : Record} (found : ledger.latestUpdated? identity choice = some record) (now : Stamp) :
    ∃ (after : Ledger) (stage : Stage),
      ledger.advance now record.id .rolledBack = .ok (after, { record with stage }) ∧
      after.Orderly ∧ record.identity = identity ∧
      ∀ noted ∈ after.records, ∃ old ∈ ledger.records,
        noted.identity = old.identity ∧ noted.before = old.before := by
  obtain ⟨below, above, stack, _⟩ := Ledger.latestUpdated?_eq_some found
  obtain ⟨front, rest, split, _, _, status, owner⟩ := Ledger.committed_split stack
  have follows : record.stage.status.next? = some .rolledBack := by
    rw [Record.status] at status
    rw [status]
    rfl
  obtain ⟨stage, next⟩ : ∃ stage, record.stage.step? now .rolledBack = some stage :=
    Stage.exists_step?_iff.mpr follows
  obtain ⟨after, stepped, records, orderlyAfter⟩ := orderly.advance split next
  refine ⟨after, stage, stepped, orderlyAfter, owner, ?_⟩
  intro noted member
  rw [records, List.mem_append, List.mem_cons] at member
  rcases member with inFront | rfl | inRest
  · exact ⟨noted, by simp [split, inFront], rfl, rfl⟩
  · exact ⟨record, by simp [split], rfl, rfl⟩
  · exact ⟨noted, by simp [split, inRest], rfl, rfl⟩

/-- A change that is found is taken back, unless its text may not be written. The record is found
first, the text is written, and the mark follows. -/
theorem perform_rollbackRun_some {choice : Choice} {record : Record} {text : Text}
    (found : desk.ledger.sought identity choice = .ok (some record))
    (read : desk.read identity = .ok text) {after : Ledger} {stage : Stage}
    (stepped : desk.ledger.advance desk.now record.id .rolledBack =
      .ok (after, { record with stage })) :
    ∃ lines, (rollbackRun identity choice).perform desk =
      if desk.outage.commits.contains identity.name then (.error (.commit identity .denied), desk)
      else
        (.ok (.ofRollback identity record),
          ({ desk.withText identity record.before with ledger := after } : Desk).logged lines) := by
  have searched := perform_findCommitted identity choice desk
  rw [found] at searched
  by_cases denied : desk.outage.commits.contains identity.name = true
  · refine ⟨[], ?_⟩
    have refused := perform_writeRoutine_denied denied record.before
    rw [if_pos denied, rollbackRun]
    refine Action.perform_bind_error ?_ _
    rw [rollBack, rollBackBy, Action.perform_bind_ok searched]
    exact Action.perform_bind_error refused _
  · have allowed : desk.outage.commits.contains identity.name = false := by simpa using denied
    have wrote := perform_writeRoutine_eq read allowed record.before
    have steppedNow : (desk.withText identity record.before).ledger.advance
      (desk.withText identity record.before).now record.id .rolledBack =
        .ok (after, { record with stage }) := stepped
    have marked : (markRolledBack record.id).perform (desk.withText identity record.before) = _ :=
      perform_advanceRecord_ok steppedNow
    simp only [if_neg denied, rollbackRun, rollBack, rollBackBy, bind_assoc, Action.perform_bind_ok searched,
      Action.perform_bind_ok wrote, Action.perform_bind_ok marked,
      Action.perform_bind_ok (perform_say _ _ _ _), pure_bind, Action.perform_pure]
    exact ⟨_, rfl⟩

/-- Without a record there is nothing to take back, and nothing is done: the search for it is the
first step, and only reads. -/
theorem perform_rollbackRun_none {choice : Choice}
    (missing : desk.ledger.sought identity choice = .ok none) :
    (rollbackRun identity choice).perform desk = (.error (.noBackup identity choice), desk) := by
  have searched := perform_findCommitted identity choice desk
  rw [missing] at searched
  refine Action.perform_bind_error ?_ _
  rw [rollBack, rollBackBy, Action.perform_bind_ok searched]
  rfl

/-- A search that is refused ends the rollback before it has done anything. -/
theorem perform_rollbackRun_error {choice : Choice} {failure : Failure}
    (refused : desk.ledger.sought identity choice = .error failure) :
    (rollbackRun identity choice).perform desk = (.error failure, desk) := by
  have searched := perform_findCommitted identity choice desk
  rw [refused] at searched
  exact Action.perform_bind_error (Action.perform_bind_error searched _) _

/-! ### Runs -/

/-- What a run is asked for. -/
inductive Errand where
  | preview (scope : Scope)
  | apply (backup isPreview : Bool) (scope : Scope)
  | batch (backup isPreview : Bool) (size : Int) (scope : Scope)
  | rollback (identity : Identity) (choice : Choice)

/-- The run of an errand, with the given rules. -/
def Errand.action (rules : List Rule) : Errand → Action Summary
  | .preview scope => previewRun rules scope
  | .apply backup isPreview scope => applyRun ⟨rules, backup, isPreview⟩ scope
  | .batch backup isPreview size scope => batchRun ⟨rules, backup, isPreview⟩ size scope
  | .rollback identity choice => rollbackRun identity choice

/-- Both desks list the same names and texts. -/
def Desk.SameTexts (desk desk' : Desk) : Prop :=
  ∃ routines routines', desk.routines = .ok routines ∧ desk'.routines = .ok routines' ∧
    routines'.map Routine.content = routines.map Routine.content ∧
    ∀ routine ∈ routines, desk.read routine.identity = .ok routine.text ∧
      desk'.read routine.identity = .ok routine.text

/-- In good order, the listing is made of the names and of what is read for them. -/
theorem Desk.Kept.contents (kept : desk.Kept) :
    ∃ routines, desk.routines = .ok routines ∧
      (∀ routine ∈ routines, desk.read routine.identity = .ok routine.text) ∧
      routines.map Routine.identity = desk.names ∧
      routines.map Routine.content = desk.names.map fun identity =>
        (identity, (desk.read identity).toOption.getD []) := by
  obtain ⟨routines, listing, _, reads⟩ := kept.agrees
  have names : desk.names = routines.map Routine.identity := by rw [Desk.names, listing]
  refine ⟨routines, listing, reads, names.symm, ?_⟩
  rw [names, List.map_map]
  refine List.map_congr_left ?_
  intro routine member
  rw [Function.comp_apply, reads routine member]
  rfl

/-- A batch with a negative interval is refused after its routines were listed, and none of them
is worked on. -/
theorem perform_batchRun_negative {routines : List Routine} (listing : desk.routines = .ok routines)
    (manner : Manner) {size : Int} (negative : size < 0) (scope : Scope) :
    ∃ lines, (batchRun manner size scope).perform desk =
      (.error (.batchSize size), desk.logged lines) := by
  have chosen := perform_candidates scope desk
  rw [listing] at chosen
  rw [batchRun, Action.perform_bind_ok chosen, Action.perform_bind_ok (perform_say _ _ _ _)]
  exact ⟨_, Action.perform_bind_error (perform_workAll_negative _ negative _ _) _⟩

namespace Desk.Matches

variable (matched : Desk.Matches listed desk desk')

include matched

/-- Desks that match have the same texts for the routines that are listed: both list the same
names, and read every one of them alike. -/
theorem sameTexts : desk.SameTexts desk' := by
  obtain ⟨routines, listing, reads, names, contents⟩ := matched.kept.contents
  obtain ⟨routines', listing', _, _, contents'⟩ := matched.kept'.contents
  rw [matched.names] at names contents
  rw [matched.names'] at contents'
  refine ⟨routines, routines', listing, listing', ?_, ?_⟩
  · rw [contents, contents']
    refine List.map_congr_left ?_
    intro identity member
    rw [matched.reads identity member]
  · intro routine member
    have listed : routine.identity ∈ listed := names ▸ List.mem_map_of_mem member
    exact ⟨reads routine member, (matched.reads _ listed).trans (reads routine member)⟩

/-- Runs that change routines have the same answer at both desks, since they list the same
routines and each of them has the same result. -/
theorem perform_changeRun {manner : Manner} (builtin : ∀ rule ∈ manner.rules, rule ∈ builtinRules)
    (scope : Scope) (size : Option Nat) :
    ((changeRun manner scope size).perform desk').1 = ((changeRun manner scope size).perform desk).1 ∧
      Desk.Matches listed ((changeRun manner scope size).perform desk).2
        ((changeRun manner scope size).perform desk').2 := by
  obtain ⟨routines, routines', listing, listing', contents, _⟩ := matched.sameTexts
  have chosen : scope.chosen routines' = scope.chosen routines := by
    rw [Scope.chosen_eq, Scope.chosen_eq, Scope.content_pick, Scope.content_pick, contents]
  have members : ∀ identity ∈ scope.chosen routines, identity ∈ listed := by
    intro identity member
    obtain ⟨routine, picked, rfl⟩ := List.mem_map.mp member
    have names := matched.names
    rw [Desk.names, listing] at names
    exact names ▸ List.mem_map_of_mem (List.mem_filter.mp picked).1
  obtain ⟨lines, performed⟩ := matched.noting.perform_changeRun listing manner scope size
  obtain ⟨lines', performed'⟩ := matched.noting'.perform_changeRun listing' manner scope size
  obtain ⟨outcomes, after⟩ := matched.changedAll builtin members
  rw [performed, performed', chosen, outcomes]
  exact ⟨rfl, after.logged lines lines'⟩

/-- A change that is found at one desk is found at the other one, and is taken back at both. The
text that comes back stands in the ledger, which accounts for it. -/
theorem rollback_found {choice : Choice} {record record' : Record}
    (found : desk.ledger.sought identity choice = .ok (some record))
    (found' : desk'.ledger.sought identity choice = .ok (some record'))
    (same : record'.timeless = record.timeless) :
    ((rollbackRun identity choice).perform desk').1 = ((rollbackRun identity choice).perform desk).1 ∧
      Desk.Matches listed ((rollbackRun identity choice).perform desk).2
        ((rollbackRun identity choice).perform desk').2 := by
  have number : record'.id = record.id := by
    have numbers := congrArg Record.id same
    exact numbers
  have before : record'.before = record.before := by
    have befores := congrArg Record.before same
    exact befores
  have latest := Ledger.sought_eq_some found
  obtain ⟨after, stage, stepped, orderly, owner, kept⟩ :=
    matched.noting.orderly.advance_latest latest desk.now
  obtain ⟨after', stage', stepped', orderly', _, _⟩ :=
    matched.noting'.orderly.advance_latest (Ledger.sought_eq_some found') desk'.now
  have ledgers : after'.timeless = after.timeless := by
    have once := desk.ledger.advance_timeless desk.now record.id .rolledBack
    have again := desk'.ledger.advance_timeless desk'.now record'.id .rolledBack
    rw [stepped'] at again
    rw [stepped, ← matched.ledgers, ← number, again] at once
    exact congrArg Prod.fst (Except.ok.inj once)
  have accounts : after.Accounts listed := by
    intro noted member
    obtain ⟨old, listedOld, sameOwner, sameBefore⟩ := kept noted member
    rw [sameOwner, sameBefore]
    exact matched.accounts old listedOld
  -- The text that comes back stands in the ledger, which accounts for it.
  obtain ⟨below, above, stack, _⟩ := Ledger.latestUpdated?_eq_some latest
  have committed := Ledger.mem_committed.mp (stack ▸ List.mem_append_right _ List.mem_cons_self)
  obtain ⟨member, plain⟩ := matched.accounts record committed.1
  rw [owner] at member
  obtain ⟨text, read⟩ := matched.kept.read_listed (matched.names ▸ member)
  have read' : desk'.read identity = .ok text := (matched.reads identity member).trans read
  obtain ⟨lines, performed⟩ := perform_rollbackRun_some found read stepped
  obtain ⟨lines', performed'⟩ := perform_rollbackRun_some found' read' stepped'
  have reply : Summary.ofRollback identity record' = .ofRollback identity record := by
    rw [Summary.ofRollback, Summary.ofRollback, number]
  rw [performed, performed', matched.outage, reply, before]
  split
  · exact ⟨rfl, matched⟩
  · have rewritten := (matched.withText member plain).withLedgers orderly orderly' ledgers accounts
    exact ⟨rfl, rewritten.logged lines lines'⟩

/-- A rollback answers the same at desks that match, and leaves them so: its record is found by
number and status, and the text that it writes is the same. -/
theorem perform_rollbackRun (identity : Identity) (choice : Choice) :
    ((rollbackRun identity choice).perform desk').1 = ((rollbackRun identity choice).perform desk).1 ∧
      Desk.Matches listed ((rollbackRun identity choice).perform desk).2
        ((rollbackRun identity choice).perform desk').2 := by
  have same : (desk'.ledger.sought identity choice).map (Option.map Record.timeless) =
      (desk.ledger.sought identity choice).map (Option.map Record.timeless) := by
    rw [← Ledger.sought_timeless, ← Ledger.sought_timeless, matched.ledgers]
  cases found : desk.ledger.sought identity choice with
  | error failure =>
    cases found' : desk'.ledger.sought identity choice with
    | ok sought => simp [found, found', Except.map] at same
    | error failure' =>
      obtain rfl : failure' = failure := by simpa [found, found', Except.map] using same
      rw [perform_rollbackRun_error found, perform_rollbackRun_error found']
      exact ⟨rfl, matched⟩
  | ok sought =>
    cases found' : desk'.ledger.sought identity choice with
    | error failure => simp [found, found', Except.map] at same
    | ok sought' =>
      have records : sought'.map Record.timeless = sought.map Record.timeless := by
        simpa [found, found', Except.map] using same
      cases sought with
      | none =>
        obtain rfl : sought' = none := by simpa using records
        rw [perform_rollbackRun_none found, perform_rollbackRun_none found']
        exact ⟨rfl, matched⟩
      | some record =>
        obtain ⟨record', rfl, timeless⟩ := Option.map_eq_some_iff.mp records
        exact matched.rollback_found found found' timeless

/-- Both desks give the same answer to an errand, and match afterwards. There is one case for each
errand. -/
theorem perform_errand {rules : List Rule} (builtin : ∀ rule ∈ rules, rule ∈ builtinRules)
    (errand : Errand) :
    ((errand.action rules).perform desk').1 = ((errand.action rules).perform desk).1 ∧
      Desk.Matches listed ((errand.action rules).perform desk).2
        ((errand.action rules).perform desk').2 := by
  obtain ⟨routines, routines', listing, listing', contents, _⟩ := matched.sameTexts
  cases errand with
  | preview scope =>
    obtain ⟨lines, performed⟩ := perform_previewRun listing rules scope
    obtain ⟨lines', performed'⟩ := perform_previewRun listing' rules scope
    have answer : previewAnswer rules scope routines' = previewAnswer rules scope routines := by
      rw [previewAnswer, previewAnswer, formsByName_eq, formsByName_eq, Scope.content_pick,
        Scope.content_pick, contents]
    rw [Errand.action, performed, performed', answer]
    exact ⟨rfl, matched.logged lines lines'⟩
  | apply backup isPreview scope => exact matched.perform_changeRun builtin scope none
  | batch backup isPreview size scope =>
    by_cases negative : size < 0
    · obtain ⟨lines, performed⟩ :=
        perform_batchRun_negative listing ⟨rules, backup, isPreview⟩ negative scope
      obtain ⟨lines', performed'⟩ :=
        perform_batchRun_negative listing' ⟨rules, backup, isPreview⟩ negative scope
      rw [Errand.action, performed, performed']
      exact ⟨rfl, matched.logged lines lines'⟩
    · obtain ⟨count, rfl⟩ := Int.eq_ofNat_of_zero_le (Int.not_lt.mp negative)
      exact matched.perform_changeRun builtin scope (some count)
  | rollback identity choice => exact matched.perform_rollbackRun identity choice

end Desk.Matches

end SqlRenewal
