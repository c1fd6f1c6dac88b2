import SqlRenewal.Proofs.CommandLine.Order
import SqlRenewal.Proofs.CommandLine.Switches

/-!
# Histories of command lines

A command line is run on the files that earlier ones have left. Whatever it asks for and
however it ends: definitions change only if a command is told to commit, or takes a change
back; records disappear only if a cleaning is confirmed; and a record that stays is about
the same change of the same routine.
-/
namespace SqlRenewal

/-! ### Histories -/

/-- A command line, with the environment and the time at which it is run. -/
structure Invocation where
  arguments : List Text
  environment : List (Text × Text)
  now : Stamp

namespace Invocation

/-- Runs the command line on some files. -/
def run (invocation : Invocation) (files : Tree) : Result :=
  runCommandLine invocation.arguments invocation.environment invocation.now files

/-- What the command line comes to, unless it is refused or asks for help. -/
def order? (invocation : Invocation) (files : Tree) : Option Order :=
  match readCommandLine invocation.arguments with
  | .error _ => none
  | .ok (general, command) =>
    match resolveSettings general command invocation.environment files with
    | .error _ => none
    | .ok settings => some ⟨command, settings⟩

variable {invocation : Invocation} {files : Tree}

/-- A command line that is refused leaves all files as they were, because it is refused before any
database is opened. -/
theorem run_of_none (refused : invocation.order? files = none) :
    (invocation.run files).files = files := by
  rw [run, runCommandLine]
  rw [order?] at refused
  split
  · rfl
  · rfl
  · rename_i general command read
    rw [read] at refused
    simp only at refused ⊢
    split at refused
    · rename_i stop resolved
      rw [resolved]
      cases stop with
      | settings fault => rfl
      | file fault => cases fault <;> rfl
    · cases refused

/-- An accepted command line respects the files as its order says. Either it ends before any
database is opened, or it is a run with a ledger, or one apart from it, which touches no file. -/
theorem run_respects {order : Order} (orderly : files.Orderly)
    (accepted : invocation.order? files = some order) :
    order.Respects files (invocation.run files).files := by
  rw [order?] at accepted
  rw [run, runCommandLine]
  split at accepted
  · cases accepted
  · rename_i general command read
    rw [read]
    split at accepted
    · cases accepted
    · rename_i settings resolved
      cases accepted
      simp only [resolved]
      split
      · exact .refl _ orderly
      · split
        · rename_i rank needed
          exact Order.respects_runWithLedger needed orderly _ _
        · rename_i apart
          rw [runApart_files (by simpa using apart) orderly.proper]
          exact .refl _ orderly

/-- An argument of the command line spells a long switch, or shortens it. -/
def Gives (invocation : Invocation) (switch : Text) : Prop :=
  ∃ argument ∈ invocation.arguments, Abbreviates argument switch

end Invocation

/-- The only commands that change definitions are a rollback and those that were given the flag
for it: the table of commands is gone through one by one. -/
theorem CommandSpec.commits {spec : CommandSpec} (known : spec ∈ commandSpecs)
    {options : CommandOptions} (commits : (spec.command options).commits = true) :
    (∃ schema name choice, spec.command options = .rollback schema name choice) ∨
      options.commit = true := by
  simp only [commandSpecs, List.mem_cons, List.not_mem_nil, or_false] at known
  rcases known with rfl | rfl | rfl | rfl | rfl | rfl | rfl | rfl | rfl <;>
    simp_all [Command.commits]

/-- The only command that removes records is one that was given its confirmation. -/
theorem CommandSpec.purges {spec : CommandSpec} (known : spec ∈ commandSpecs)
    {options : CommandOptions} (purges : (spec.command options).purges = true) :
    options.confirm = true := by
  simp only [commandSpecs, List.mem_cons, List.not_mem_nil, or_false] at known
  rcases known with rfl | rfl | rfl | rfl | rfl | rfl | rfl | rfl | rfl <;>
    simp_all [Command.purges]

namespace Invocation

variable {invocation : Invocation} {files : Tree} {order : Order}

/-- An order comes from a command line that was read, and its command is the one that was read. -/
theorem order?_eq_some (accepted : invocation.order? files = some order) :
    ∃ general, readCommandLine invocation.arguments = .ok (general, order.command) := by
  rw [order?] at accepted
  split at accepted
  · cases accepted
  · rename_i general command read
    split at accepted
    · cases accepted
    · cases accepted
      exact ⟨general, read⟩

/-- A command line only consents by the flag for it. Its command is read from its own
options, and these are the ones of a command without arguments wherever the flag is missing. -/
theorem gives_consent (accepted : invocation.order? files = some order) :
    ∃ spec ∈ commandSpecs, ∃ options, order.command = spec.command options ∧
      ∀ consent : Consent, consent.isGiven options = true → invocation.Gives consent.flag := by
  obtain ⟨general, read⟩ := order?_eq_some accepted
  obtain ⟨spec, known, rest, own, inside, done, same⟩ := readCommandLine_eq_ok read
  refine ⟨spec, known, own.options, same, fun consent given => ?_⟩
  by_contra ungiven
  have withheld : consent.isGiven {} = false := by cases consent <;> rfl
  have kept := (loneFlag_consent consent known).ofArguments_keeps done
    (fun argument member spelled => ungiven ⟨argument, inside member, spelled⟩) withheld
  rw [given] at kept
  cases kept

/-- A command that commits was told to, or takes a change back. -/
theorem gives_commit (accepted : invocation.order? files = some order)
    (commits : order.command.commits = true) :
    (∃ schema name choice, order.command = .rollback schema name choice) ∨
      invocation.Gives "--commit".toList := by
  obtain ⟨spec, known, options, same, gives⟩ := gives_consent accepted
  rw [same] at commits ⊢
  exact (CommandSpec.commits known commits).imp id (gives .commit)

/-- A command that removes records was told to. -/
theorem gives_confirm (accepted : invocation.order? files = some order)
    (purges : order.command.purges = true) : invocation.Gives "--confirm".toList := by
  obtain ⟨spec, known, options, same, gives⟩ := gives_consent accepted
  rw [same] at purges
  exact gives .confirm (CommandSpec.purges known purges)

/-- The stores behind a command line, as far as it may not change them. -/
structure Confined (invocation : Invocation) (order : Order) (before after : Tree) : Prop where
  leaves : ∀ place, order.Spares place → order.Leaves before after place
  definitions : order.command.commits = false → ∀ root place, Folder.Owns root place →
    ¬ order.command.ExportsTo place →
      after.bytesAt place = before.bytesAt place ∧
        ((∀ file, order.Keeps file → place ≠ file.collapse) →
          after.fileAt place = before.fileAt place)
  commits : order.command.commits = true →
    (∃ schema name choice, order.command = .rollback schema name choice) ∨
      invocation.Gives "--commit".toList
  purges : order.command.purges = true → invocation.Gives "--confirm".toList

/-- What an accepted command line does is confined to the database of its ledger and to the
definitions that it names. -/
theorem run_confined (orderly : files.Orderly) (accepted : invocation.order? files = some order) :
    invocation.Confined order files (invocation.run files).files := by
  have respects := run_respects orderly accepted
  refine ⟨respects.leaves, ?_, gives_commit accepted, gives_confirm accepted⟩
  intro commits root place owned unexported
  have spares : order.Spares place := by
    refine ⟨unexported, fun file _ => owned.ne_changes file, fun told => ?_⟩
    rw [commits] at told
    cases told
  exact ⟨(respects.leaves place spares).bytes commits, respects.elsewhere place spares⟩

end Invocation

namespace Tree

variable {files : Tree} {place : Path}

/-- The files after a history of command lines. -/
def afterAll (files : Tree) : List Invocation → Tree
  | [] => files
  | invocation :: later => (invocation.run files).files.afterAll later

/-- Every command of a history has a property. -/
def EveryOrder (property : Order → Prop) (files : Tree) : List Invocation → Prop
  | [] => True
  | invocation :: later =>
    (∀ order, invocation.order? files = some order → property order) ∧
      (invocation.run files).files.EveryOrder property later

/-- Files are orderly after a command line, whether it is refused or not. -/
theorem Orderly.run (orderly : files.Orderly) (invocation : Invocation) :
    (invocation.run files).files.Orderly := by
  cases accepted : invocation.order? files with
  | none => rwa [Invocation.run_of_none accepted]
  | some order => exact (Invocation.run_respects orderly accepted).orderly

/-- Files stay orderly over a whole history, by induction over its command lines. -/
theorem Orderly.afterAll (orderly : files.Orderly) (history : List Invocation) :
    (files.afterAll history).Orderly := by
  induction history generalizing files with
  | nil => exact orderly
  | cons invocation later inductionHypothesis =>
    exact inductionHypothesis (orderly.run invocation)

/-- What every command makes of the files, a whole history makes of them: a refused command
line changes nothing. -/
theorem Orderly.relates_afterAll (relation : Tree → Tree → Prop) [IsPreorder Tree relation]
    {property : Order → Prop}
    (step : ∀ before after order, order.Respects before after → property order →
      relation before after)
    (orderly : files.Orderly) {history : List Invocation}
    (every : files.EveryOrder property history) : relation files (files.afterAll history) := by
  induction history generalizing files with
  | nil => exact refl_of relation files
  | cons invocation later inductionHypothesis =>
    refine trans_of relation ?_ (inductionHypothesis (orderly.run invocation) every.2)
    cases accepted : invocation.order? files with
    | none =>
      rw [Invocation.run_of_none accepted]
      exact refl_of relation files
    | some order =>
      have respects := Invocation.run_respects orderly accepted
      exact step files _ order respects (every.1 order accepted)

/-- Both trees have the same texts at a place. -/
structure SameTexts (place : Path) (before after : Tree) : Prop where
  bytes : after.bytesAt place = before.bytesAt place
  catalog : after.catalogAt place = before.catalogAt place

/-- The texts of a place can be compared over a whole history. -/
instance (place : Path) : IsPreorder Tree (SameTexts place) where
  refl _ := ⟨rfl, rfl⟩
  trans _ _ _ first second :=
    ⟨second.bytes.trans first.bytes, second.catalog.trans first.catalog⟩

/-- The records at a place are kept. -/
def KeepsRecordsAt (place : Path) (before after : Tree) : Prop :=
  RecordsKept (before.recordsAt place) (after.recordsAt place)

/-- The records of a place can be compared over a whole history. -/
instance (place : Path) : IsPreorder Tree (KeepsRecordsAt place) where
  refl _ := RecordsKept.refl _
  trans _ _ _ first second := RecordsKept.trans first second

/-- Texts outlast every history in which no command commits. Both parts, the bytes and the
catalog, are kept by a single invocation, and the relation is transitive. -/
theorem Orderly.texts_afterAll (orderly : files.Orderly) {history : List Invocation}
    (every : files.EveryOrder (fun order => order.Spares place ∧ order.command.commits = false)
      history) : SameTexts place files (files.afterAll history) := by
  refine orderly.relates_afterAll (SameTexts place) ?_ every
  intro before after order respects allowed
  obtain ⟨spares, commits⟩ := allowed
  have leaves := respects.leaves place spares
  exact ⟨leaves.bytes commits, leaves.catalog commits⟩

/-- Records outlast every history in which no command removes them. The other case of a single
invocation, a removal at this place, is what the history excludes. -/
theorem Orderly.records_afterAll (orderly : files.Orderly) {history : List Invocation}
    (every : files.EveryOrder (fun order => order.Spares place ∧ ¬ order.Purges place) history) :
    KeepsRecordsAt place files (files.afterAll history) := by
  refine orderly.relates_afterAll (KeepsRecordsAt place) ?_ every
  intro before after order respects allowed
  obtain ⟨spares, unpurged⟩ := allowed
  rcases (respects.leaves place spares).records.kept with kept | ⟨purges, _⟩
  · exact kept
  · exact absurd purges unpurged

end Tree

/-- After every history, a command line changes the stores only as far as it is told to: a
refused one changes nothing, and all others are confined. Over the whole history, texts are
safe as long as no command commits, and records as long as none removes them. -/
theorem stores_change_only_on_demand {files : Tree} (orderly : files.Orderly)
    (history : List Invocation) :
    (∀ invocation : Invocation,
      let before := files.afterAll history
      let after := (invocation.run before).files
      match invocation.order? before with
      | none => after = before
      | some order => invocation.Confined order before after) ∧
    ∀ place,
      (files.EveryOrder (fun order => order.Spares place ∧ order.command.commits = false) history →
        (files.afterAll history).bytesAt place = files.bytesAt place ∧
          (files.afterAll history).catalogAt place = files.catalogAt place) ∧
      (files.EveryOrder (fun order => order.Spares place ∧ ¬ order.Purges place) history →
        RecordsKept (files.recordsAt place) ((files.afterAll history).recordsAt place)) := by
  refine ⟨?_, fun place => ⟨?_, orderly.records_afterAll⟩⟩
  · intro invocation before after
    split
    · rename_i refused
      exact Invocation.run_of_none refused
    · rename_i order accepted
      exact Invocation.run_confined (orderly.afterAll history) accepted
  · intro every
    obtain ⟨bytes, catalog⟩ := orderly.texts_afterAll every
    exact ⟨bytes, catalog⟩

/-- A definition that an uncommitted change would rewrite, and a record of an earlier change,
are both there after the change. -/
theorem stores_change_only_on_demand_apply :
    let root : Path := ⟨.here, ["defs".toList]⟩
    let place : Path := root.child "dbo.p.sql".toList
    let ledger : Path := ⟨.here, [['j']]⟩
    let bytes := Utf8.encode "RAISERROR(1)".toList
    let record : Record :=
      { id := 1, identity := ⟨['s'], ['n'], by decide, List.cons_ne_nil _ _⟩
        before := ['a'], after := some ['b'], createdAt := [], stage := .updated [] }
    let files : Tree := ⟨[(root, .directory), (place, .file bytes),
      (ledger, .database { ledger := { records := [record], lastRecord := 1 } })]⟩
    let apply : Invocation := ⟨["--journal-db".toList, ['j'], "--definitions-dir".toList,
      "defs".toList, "apply".toList], [], []⟩
    (files.afterAll [apply]).bytesAt place = some bytes ∧
      RecordsKept [record] ((files.afterAll [apply]).recordsAt ledger) := by
  intro root place ledger bytes record files apply
  have orderly : files.Orderly := by
    refine .of_entries ⟨by decide, by decide⟩ ?_
    intro entry listed database same
    simp only [files, List.mem_cons, List.not_mem_nil, or_false] at listed
    rcases listed with rfl | rfl | rfl
    · cases same
    · cases same
    · cases same
      refine ⟨⟨_, rfl⟩, List.pairwise_singleton _ _, ?_⟩
      simp [Database.restore, Ledger.restore, record]
  have accepted : apply.order? files = some ⟨.apply {} false false,
      { ledger := ⟨.here, [['j']]⟩, source := some (.folder ⟨.here, ["defs".toList]⟩) }⟩ := by
    generalize files = files
    unfold apply
    cbv
  have spares (spot : Path) (apart : spot ≠ ⟨.here, ["j.wal".toList]⟩) (order : Order)
      (found : apply.order? files = some order) :
      order.Spares spot ∧ order.command.commits = false ∧ ¬ order.Purges spot := by
    cases accepted.symm.trans found
    refine ⟨⟨?_, ?_, ?_⟩, rfl, ?_⟩
    · rintro ⟨target, exported, _⟩
      cases exported
    · rintro file (⟨_, keeper⟩ | ⟨_, path, source, _⟩)
      · have kept : Path.keeper ⟨.here, [['j']]⟩ = .file ⟨.here, [['j']]⟩ := by decide
        cases kept.symm.trans keeper
        exact apart
      · cases source
    · intro commits
      cases commits
    · rintro ⟨purges, _⟩
      cases purges
  obtain ⟨_, whole⟩ := stores_change_only_on_demand orderly [apply]
  have texts := (whole place).1
    ⟨fun order found => ⟨(spares place (by decide) order found).1,
      (spares place (by decide) order found).2.1⟩, trivial⟩
  have records := (whole ledger).2
    ⟨fun order found => ⟨(spares ledger (by decide) order found).1,
      (spares ledger (by decide) order found).2.2⟩, trivial⟩
  exact ⟨texts.1, records⟩

/-- A definition database that stands where the ledger has its last changes is lost when the
ledger is opened, although the command asks for nothing but the counts. -/
theorem status_removes_store_beside_ledger :
    let stored : Catalog :=
      [⟨⟨"dbo".toList, ['p'], by decide, List.cons_ne_nil _ _⟩, "PROCEDURE".toList,
        "RAISERROR(1)".toList⟩]
    let place : Path := ⟨.here, ["j.wal".toList]⟩
    let files : Tree := ⟨[(place, .database { catalog := some stored })]⟩
    let status : Invocation := ⟨["--journal-db".toList, ['j'], "status".toList], [], []⟩
    files.Orderly ∧
      status.order? files = some ⟨.status, { ledger := ⟨.here, [['j']]⟩ }⟩ ∧
      files.catalogAt place = stored ∧ (status.run files).files.catalogAt place = [] := by
  intro stored place files status
  have accepted : status.order? files = some ⟨.status, { ledger := ⟨.here, [['j']]⟩ }⟩ := by
    generalize files = files
    unfold status
    cbv
  refine ⟨?_, accepted, rfl, ?_⟩
  · refine .of_entries ⟨by decide, by decide⟩ ?_
    intro entry listed database same
    rw [List.mem_singleton.mp listed] at same
    cases same
    exact .ofEmpty ⟨_, rfl⟩ rfl
  · have read : readCommandLine status.arguments = .ok ({ ledger := some ['j'] }, .status) := by
      unfold status
      cbv
    have resolved : resolveSettings { ledger := some ['j'] } .status [] files =
        .ok { ledger := ⟨.here, [['j']]⟩ } := by
      generalize files = files
      cbv
    have rank : shownRank "INFO".toList = .ok 20 := by cbv
    have opened : files.openDatabase .ledger true ⟨.here, [['j']]⟩ = .ok {} := rfl
    have ran : status.run files = runWithLedger { ledger := ⟨.here, [['j']]⟩ } 20 .status [] files :=
      runCommandLine_withLedger read resolved rank rfl []
    have quiet : (Command.work { ledger := ⟨.here, [['j']]⟩ } .status).Within Desk.Logs :=
      .bind .get fun _ => logs_ofJson _ _
    rw [ran, runWithLedger, opened]
    simp only [Command.needsShelf, Bool.false_eq_true, if_false]
    rw [conclude_files]
    obtain ⟨lines, ended⟩ := quiet
      { shelf := .nowhere, ledger := {}, files := files.keepDatabase ⟨.here, [['j']]⟩ {}, now := [] }
    rw [ended]
    rfl

end SqlRenewal
