import SqlRenewal.Proofs.CommandLine.History
import SqlRenewal.Proofs.Work.Cleaning

/-!
# Archives beside the ledger

A cleaning writes its archive while the database of the ledger is open, and the command ends
by closing that database. Closing writes the file of the database and removes the file of its
last changes. An archive at any other path is still there afterwards, because neither of the
two stands on the way to it. An archive at the path of the last changes is taken for them and
removed, when the records are already gone from the ledger.

So the ledger and the files have to be looked at together, and after the closing: at the desk
alone every archive seems to be safe.
-/
namespace SqlRenewal

/-! ### Closing a ledger -/

/-- The file of the ledger, if one keeps it, holds a database. That is so from the time at
which the ledger is opened. -/
def Desk.Hosts (desk : Desk) (ledger : Path) : Prop :=
  ∀ file, ledger.keeper = .file file →
    ∃ database, desk.files.fileAt file.collapse = some (.database database)

/-- The path leads neither to the file of a database nor to that of its last changes, however
it is spelled. -/
def Path.Avoids (path ledger : Path) : Prop :=
  ∀ file, ledger.keeper = .file file →
    path.collapse ≠ file.collapse ∧ path.collapse ≠ file.changes.collapse

/-- The files after the ledger has been closed, in a database with the given definitions. -/
def Desk.closed (desk : Desk) (ledger : Path) (catalog : Option Catalog) : Tree :=
  desk.files.keepDatabase ledger { catalog, ledger := desk.ledger }

section Closing

variable {desk after : Desk} {ledger path : Path}

/-- What touches only the file at a path leaves the database in its place, if the path avoids
it. -/
theorem Desk.Hosts.of_fileAt (hosts : desk.Hosts ledger) (avoids : path.Avoids ledger)
    (untouched : ∀ place, place ≠ path.collapse →
      after.files.fileAt place = desk.files.fileAt place) : after.Hosts ledger := by
  intro file keeper
  obtain ⟨database, stands⟩ := hosts file keeper
  exact ⟨database, (untouched _ (avoids file keeper).1.symm).trans stands⟩

/-- Closing hides nothing that is found at a path that avoids the database. Only files are
written and removed, so all directories on the way are still there. -/
theorem Desk.Hosts.look_closed (hosts : desk.Hosts ledger) (avoids : path.Avoids ledger)
    {entry : Entry} (found : desk.files.look path = .ok entry) (catalog : Option Catalog) :
    (desk.closed ledger catalog).look path = .ok entry := by
  by_cases kept : ∃ file, ledger.keeper = .file file
  · obtain ⟨file, keeper⟩ := kept
    obtain ⟨database, stands⟩ := hosts file keeper
    obtain ⟨apart, settled⟩ := avoids file keeper
    have directories : desk.files.KeepsDirectories (desk.closed ledger catalog) :=
      Tree.keepsDirectories_keepDatabase keeper (Tree.takes_of_fileAt stands)
    have same : Tree.entry? (desk.closed ledger catalog) path.collapse =
        desk.files.entry? path.collapse :=
      Tree.entry?_keepDatabase_of_ne keeper _ apart settled
    exact Tree.look_of_keepsDirectories directories found (same.trans (Tree.look_eq_ok found))
  · rw [Desk.closed, Tree.keepDatabase_of_unkept (not_exists.mp kept)]
    exact found

/-- An archive beside a ledger outlasts its closing, because its bytes are read from what is
found at the path. -/
theorem Desk.Hosts.archives_closed (hosts : desk.Hosts ledger) (avoids : path.Avoids ledger)
    {records : List Record} (archives : desk.files.Archives path records)
    (catalog : Option Catalog) : (desk.closed ledger catalog).Archives path records := by
  obtain ⟨⟨written, lines, stored, cut, length, said⟩, increasing⟩ := archives
  refine ⟨⟨written, lines, ?_, cut, length, said⟩, increasing⟩
  rw [Tree.readBytes] at stored ⊢
  cases found : desk.files.look path with
  | error fault =>
    rw [found] at stored
    cases stored
  | ok entry =>
    rw [found] at stored
    rw [hosts.look_closed avoids found]
    exact stored

/-- The file of the ledger has what the ledger had when it was closed. -/
theorem Desk.Hosts.databaseAt_closed (hosts : desk.Hosts ledger) {file : Path}
    (keeper : ledger.keeper = .file file) (catalog : Option Catalog) :
    (desk.closed ledger catalog).databaseAt file.collapse =
      some { catalog, ledger := desk.ledger } := by
  obtain ⟨database, stands⟩ := hosts file keeper
  exact Tree.databaseAt_of_fileAt
    (Tree.fileAt_keepDatabase_self keeper (Tree.takes_of_fileAt stands))

end Closing

/-! ### A cleaning as a command -/

/-- A command that needs no definitions leaves the files with the ledger closed, as the work
has left it. -/
theorem runWithLedger_closes (settings : Settings) (rank : Nat) {command : Command} {now : Stamp}
    {files : Tree} {database : Database} {reply : Reply} {after : Desk}
    (apart : command.needsShelf = false)
    (opened : files.openDatabase .ledger true settings.ledger = .ok database)
    (worked : (command.work settings).perform
      { shelf := .nowhere, ledger := database.ledger, now
        files := files.keepDatabase settings.ledger database } = (.ok reply, after)) :
    let result := runWithLedger settings rank command now files
    result.ended = .exit reply.code ∧
      result.files = after.closed settings.ledger database.catalog := by
  simp only [runWithLedger, opened, apart, Bool.false_eq_true, if_false, worked]
  exact ⟨rfl, rfl⟩

/-- A confirmed cleaning that succeeds is reported as a success. Only numbers that cannot be
printed would stand against it. -/
theorem perform_work_cleanup (settings : Settings) {target : Text} {desk after : Desk}
    {cleanup : Cleanup} (named : target ≠ []) (writable : cleanup.toJson.Writable)
    (cleaned : (cleanUp true (some (Path.ofText target))).perform desk = (.ok cleanup, after)) :
    ∃ printed, ((Command.cleanup true (some target)).work settings).perform desk =
      (.ok ⟨printed, 0⟩, after) := by
  have faultless : cleanup.toJson.fault? Json.depthLimit = none :=
    (Json.fault?_eq_none_iff _ _).mpr writable
  have path : (Option.filter (fun text => decide (text ≠ [])) (some target)).map Path.ofText =
      some (Path.ofText target) := by simp [named]
  rw [Command.work, path, Action.perform_bind_ok cleaned, Reply.ofJson, Json.document, faultless]
  exact ⟨_, rfl⟩

/-! ### No record is lost in a file -/

/-- What a cleaning that succeeds leaves behind when the ledger is closed: the archive at its
path, and in the file of the ledger a database without records and events. -/
def Desk.KeepsArchive (mishap : Mishap) (ledger : Path) (desk : Desk) : Prop :=
  ∀ path cleanup after, path.Avoids ledger →
    (cleanUpUnless mishap true (some path)).perform desk = (.ok cleanup, after) →
    ∀ catalog, (after.closed ledger catalog).Archives path desk.ledger.records ∧
      ∀ file, ledger.keeper = .file file →
        ∃ database, (after.closed ledger catalog).databaseAt file.collapse = some database ∧
          database.ledger.records = [] ∧ database.ledger.events = some []

/-- What is kept at the desk is kept in the files. The cleaning has touched the file of the
archive only, so the database of the ledger is closed where it was opened. -/
theorem Desk.KeepsHistory.archive {mishap : Mishap} {desk : Desk} {ledger : Path}
    (keeps : desk.KeepsHistory mishap) (hosts : desk.Hosts ledger) :
    desk.KeepsArchive mishap ledger := by
  intro path cleanup after avoids performed catalog
  obtain ⟨failure, failed, _⟩ | ⟨_, _, records, events, archives, _, untouched⟩ :=
    keeps.confirmed path
  · rw [performed] at failed
    cases failed
  · rw [performed] at records events archives untouched
    have stays : after.Hosts ledger := hosts.of_fileAt avoids untouched
    refine ⟨stays.archives_closed avoids archives catalog, fun file keeper => ?_⟩
    exact ⟨_, stays.databaseAt_closed keeper catalog, records, events⟩

/-- A ledger that was new at the beginning loses no record to a cleaning, whatever was asked
of it before, and whatever goes wrong: either all of them stay in it, or they are in an
archive, which is still there after the ledger is closed if its path avoids the files of the
ledger. Where nothing goes wrong, it is the plain cleaning. -/
theorem serve_keepsHistory (desk : Desk) (requests : List Request) (mishap : Mishap) :
    let served := ({ desk with ledger := {} } : Desk).serve requests
    served.KeepsHistory mishap ∧
      (∀ ledger, served.Hosts ledger → served.KeepsArchive mishap ledger) ∧
      cleanUpUnless {} = cleanUp ∧ purgeUnless {} = purge := by
  intro served
  have keeps : served.KeepsHistory mishap := desk.keepsHistory_serve requests mishap
  exact ⟨keeps, fun _ hosts => keeps.archive hosts, cleanUpUnless_nothing, purgeUnless_nothing⟩

/-- An archive at the path of the last changes is lost: the command succeeds, no record is
left in the ledger, and nothing stands at the path. -/
theorem cleanup_loses_archive_of_changes :
    let record : Record :=
      { id := 1, identity := ⟨['s'], ['n'], by decide, List.cons_ne_nil _ _⟩
        before := ['a'], after := some ['b'], createdAt := [], stage := .backedUp }
    let event : Event := ⟨1, 1, none, .backedUp, []⟩
    let ledger : Path := ⟨.here, [['j']]⟩
    let target : Path := ⟨.here, ["j.wal".toList]⟩
    let database : Database :=
      { ledger := { records := [record], events := some [event], lastRecord := 1, lastEvent := 1 } }
    let files : Tree := ⟨[(ledger, .database database)]⟩
    let cleanup : Invocation := ⟨["--journal-db".toList, ['j'], "cleanup".toList,
      "--confirm".toList, "--export".toList, "j.wal".toList], [], []⟩
    let result := cleanup.run files
    files.Orderly ∧ files.recordsAt ledger = [record] ∧ target ≠ ledger ∧
      result.ended = .exit 0 ∧ result.files.recordsAt ledger = [] ∧
      result.files.holds target = .ok false := by
  intro record event ledger target database files cleanup result
  have orderly : files.Orderly := by
    refine .of_entries ⟨by decide, by decide⟩ ?_
    intro entry listed other same
    rw [List.mem_singleton.mp listed] at same
    cases same
    refine ⟨⟨_, rfl⟩, List.pairwise_singleton _ _, ?_⟩
    simp [Database.restore, Ledger.restore, database, record]
  have read : readCommandLine cleanup.arguments =
      .ok ({ ledger := some ['j'] }, .cleanup true (some "j.wal".toList)) := by
    unfold cleanup
    cbv
  have resolved : resolveSettings { ledger := some ['j'] } (.cleanup true (some "j.wal".toList))
      [] files = .ok { ledger } := by
    generalize files = files
    cbv
  have rank : shownRank "INFO".toList = .ok 20 := by cbv
  have ran : result =
      runWithLedger { ledger } 20 (.cleanup true (some "j.wal".toList)) [] files :=
    runCommandLine_withLedger read resolved rank rfl []
  have opened : files.openDatabase .ledger true ⟨.here, [['j']]⟩ = .ok database := rfl
  have unchanged : files.keepDatabase ⟨.here, [['j']]⟩ database = files := rfl
  let desk (files : Tree) : Desk := { shelf := .nowhere, ledger := database.ledger, files, now := [] }
  obtain ⟨bytes, exported⟩ : ∃ bytes, (exportRecords target).perform (desk files) =
      (.ok 1, { desk files with files := files.put target (.file bytes) }) := by
    refine perform_exportRecords_ok rfl ?_ rfl
    intro other listed
    rw [List.mem_singleton.mp listed]
    decide
  obtain ⟨lines, cleaned⟩ := perform_cleanUp_confirmed (desk files) rfl exported
  obtain ⟨printed, worked⟩ : ∃ printed,
      ((Command.cleanup true (some "j.wal".toList)).work { ledger }).perform (desk files) =
        (.ok ⟨printed, 0⟩, _) :=
    perform_work_cleanup { ledger } (by decide) (by decide) cleaned
  rw [← unchanged] at worked
  obtain ⟨ended, closed⟩ := runWithLedger_closes { ledger } 20 rfl opened worked
  have lost (old new : Database) : Tree.keepDatabase
      (Tree.put ⟨[(⟨.here, [['j']]⟩, .database old)]⟩ ⟨.here, ["j.wal".toList]⟩ (.file bytes))
      ⟨.here, [['j']]⟩ new = ⟨[(⟨.here, [['j']]⟩, .database new)]⟩ := rfl
  have left : result.files = ⟨[(ledger, .database
      { ledger := { records := [], events := some [], lastRecord := 1, lastEvent := 1 } })]⟩ := by
    rw [ran, closed]
    exact lost database _
  refine ⟨orderly, rfl, by decide, by rw [ran]; exact ended, ?_, ?_⟩
  · rw [left]
    rfl
  · rw [left]
    rfl

end SqlRenewal
