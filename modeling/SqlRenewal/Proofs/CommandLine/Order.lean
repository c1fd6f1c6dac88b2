import SqlRenewal.Proofs.CommandLine.Effect

/-!
# What a command leaves of the files

A command opens the ledger, and the definitions if it needs them, works at its desk, and
keeps both. At every place that it has no reason of its own to write to, the texts stay as
they were unless it commits, and the records stay unless it removes them.

A path that a command exports to, and the file of last changes beside a database that it
opens, belong to the command; nothing is said about what else stood there.
-/
namespace SqlRenewal

/-! ### Orders -/

/-- What a command line comes to. -/
structure Order where
  command : Command
  settings : Settings

namespace Order

/-- The command opens a database in that file, and keeps it there. -/
def Keeps (order : Order) (file : Path) : Prop :=
  order.command.needsLedger = true ∧ order.settings.ledger.keeper = .file file ∨
    order.command.needsShelf = true ∧
      ∃ path, order.settings.source = some (.database path) ∧ path.keeper = .file file

/-- The place is that of a definition file that the command may write, in the folder that it
works on. -/
def Owns (order : Order) (place : Path) : Prop :=
  ∃ root, order.settings.source = some (.folder root) ∧
    ∃ name, order.command.Names name ∧ place = (Folder.fileNamed root name).collapse

/-- The command has no reason of its own to write a file at the place. -/
structure Spares (order : Order) (place : Path) : Prop where
  exports : ¬ order.command.ExportsTo place
  changes : ∀ file, order.Keeps file → place ≠ file.changes.collapse
  definitions : order.command.commits = true → ¬ order.Owns place

/-- The command removes the records in the database at the place. -/
def Purges (order : Order) (place : Path) : Prop :=
  order.command.purges = true ∧
    ∃ file, order.settings.ledger.keeper = .file file ∧ place = file.collapse

/-- The records at a place are still there, unless the command removes them; and they are
as they were, unless it commits. -/
structure KeepsRecords (order : Order) (place : Path) (before after : List Record) : Prop where
  kept : RecordsKept before after ∨ order.Purges place ∧ after = []
  untouched : order.command.commits = false → ¬ order.Purges place → before <+: after

/-- What stood at a place is still there, as far as the command may not change it. -/
structure Leaves (order : Order) (before after : Tree) (place : Path) : Prop where
  bytes : order.command.commits = false → after.bytesAt place = before.bytesAt place
  catalog : order.command.commits = false → after.catalogAt place = before.catalogAt place
  records : order.KeepsRecords place (before.recordsAt place) (after.recordsAt place)

variable {order : Order} {before after last : Tree} {place : Path}

/-- Records that stay as they are are kept, whatever an order may do with them. -/
theorem KeepsRecords.refl (order : Order) (place : Path) (records : List Record) :
    order.KeepsRecords place records records :=
  ⟨.inl (.refl records), fun _ _ => List.prefix_refl records⟩

/-- A place where the same entry stands is left. -/
theorem Leaves.of_sameAt (same : before.SameAt after place) : order.Leaves before after place :=
  ⟨fun _ => same.bytes, fun _ => same.catalog, same.records ▸ .refl order place _⟩

end Order

/-- A place that is left, and at which nothing changes afterwards, is left on the whole. -/
theorem Order.Leaves.trans_sameAt {order : Order} {before after last : Tree} {place : Path}
    (leaves : order.Leaves before after place) (same : after.SameAt last place) :
    order.Leaves before last place :=
  ⟨fun commits => same.bytes.trans (leaves.bytes commits),
    fun commits => same.catalog.trans (leaves.catalog commits), same.records ▸ leaves.records⟩

/-! ### Databases that are opened and kept -/

namespace Tree

variable {tree : Tree} {path place : Path} {database : Database} {kind : Place} {create : Bool}

/-- A database that is opened and kept leaves the same everywhere. -/
theorem sameAt_keepOpened (opened : tree.openDatabase kind create path = .ok database)
    (settled : ∀ file, path.keeper = .file file → place ≠ file.changes.collapse) :
    tree.SameAt (tree.keepDatabase path database) place := by
  obtain ⟨file, keeper, loaded⟩ | ⟨unkept, _⟩ := openDatabase_eq_ok opened
  · exact (loadDatabase_finds loaded).sameAt_keep keeper (settled file keeper)
  · rw [keepDatabase_of_unkept unkept]
    exact .of_fileAt rfl

/-- The ledger of a database that was opened is orderly, because opening it restores missing
tables, and orderly files hold orderly ledgers. -/
theorem Orderly.ledger (orderly : tree.Orderly)
    (opened : tree.openDatabase kind create path = .ok database) : database.ledger.Orderly := by
  obtain ⟨file, keeper, loaded⟩ | ⟨_, rfl⟩ := openDatabase_eq_ok opened
  · exact (loadDatabase_finds loaded).orderly orderly
  · exact orderly_new

/-- To open a database that a file keeps is to load that file; the checks before it only decide
whether there is one. -/
theorem openDatabase_loads {file : Path} (keeper : path.keeper = .file file)
    (opened : tree.openDatabase kind create path = .ok database) :
    tree.loadDatabase file = .ok database := by
  obtain ⟨found, same, loaded⟩ | ⟨unkept, _⟩ := openDatabase_eq_ok opened
  · cases keeper.symm.trans same
    exact loaded
  · exact absurd keeper (unkept file)

/-- To keep a database writes its own file and removes the one of its last changes, so any other
place has the file that it had. -/
theorem fileAt_keepDatabase_elsewhere
    (apart : ∀ file, path.keeper = .file file → place ≠ file.collapse ∧ place ≠ file.changes.collapse)
    (database : Database) : (tree.keepDatabase path database).fileAt place = tree.fileAt place := by
  by_cases kept : ∃ file, path.keeper = .file file
  · obtain ⟨file, keeper⟩ := kept
    exact fileAt_keepDatabase_of_ne keeper database (apart file keeper).1 (apart file keeper).2
  · rw [keepDatabase_of_unkept (not_exists.mp kept)]

end Tree

/-! ### One command -/

/-- Only commands about the ledger alone export anything. The cases are the commands, and the two
that export need a ledger but no definitions. -/
theorem Command.target?_eq_none {command : Command}
    (other : command.needsShelf = true ∨ command.needsLedger = false) : command.target? = none := by
  cases command with
  | preview scope => rfl
  | apply scope commit noBackup => rfl
  | batch scope commit noBackup size => rfl
  | rollback schema name choice => rfl
  | history schema name => rfl
  | status => rfl
  | «export» out => simp [needsShelf, needsLedger] at other
  | cleanup confirmed target => simp [needsShelf, needsLedger] at other
  | renew file report => rfl

section Run

variable {order : Order} {files : Tree} {place : Path} {database found : Database}
  {desk after : Desk}

/-- The ledger is kept with what the work has made of it: at its place the database has the
catalog that it had, and the records that the effect of the command allows; at any other place
nothing changes. -/
theorem Order.leaves_keepLedger
    (opened : files.openDatabase .ledger true order.settings.ledger = .ok database)
    (begun : desk.files = files.keepDatabase order.settings.ledger database)
    (ledger : desk.ledger = database.ledger) (effect : order.command.Effect desk after)
    (same : after.files.fileAt place = desk.files.fileAt place)
    (settled : ∀ file, order.settings.ledger.keeper = .file file → place ≠ file.changes.collapse) :
    let kept := after.files.keepDatabase order.settings.ledger { database with ledger := after.ledger }
    kept.bytesAt place = files.bytesAt place ∧ kept.catalogAt place = files.catalogAt place ∧
      order.KeepsRecords place (files.recordsAt place) (kept.recordsAt place) := by
  intro kept
  by_cases here : ∃ file, order.settings.ledger.keeper = .file file ∧ place = file.collapse
  · obtain ⟨file, keeper, rfl⟩ := here
    have finds := Tree.loadDatabase_finds (Tree.openDatabase_loads keeper opened)
    have stood : desk.files.fileAt file.collapse = some (.database database) := by
      rw [begun]
      exact Tree.fileAt_keepDatabase_self keeper finds.takes
    have stands : kept.fileAt file.collapse =
        some (.database { database with ledger := after.ledger }) :=
      Tree.fileAt_keepDatabase_self keeper (Tree.takes_of_fileAt (same.trans stood))
    have found := Tree.databaseAt_of_fileAt stands
    refine ⟨?_, ?_, ?_⟩
    · rw [Tree.bytesAt_of_fileAt stands, finds.bytes]
    · rw [← finds.catalog, Tree.catalogAt, found]
      rfl
    · have records : kept.recordsAt file.collapse = after.ledger.records := by
        rw [Tree.recordsAt, found]
        rfl
      rw [records, ← finds.records, ← ledger]
      constructor
      · rcases effect.records with kept | ⟨purges, empty⟩
        · exact .inl kept
        · exact .inr ⟨⟨purges, file, keeper, rfl⟩, empty⟩
      · intro commits kept
        refine effect.untouched commits ?_
        by_contra purges
        exact kept ⟨by simpa using purges, file, keeper, rfl⟩
  · have apart (file : Path) (keeper : order.settings.ledger.keeper = .file file) :
        place ≠ file.collapse ∧ place ≠ file.changes.collapse :=
      ⟨fun same => here ⟨file, keeper, same⟩, settled file keeper⟩
    have alike : files.SameAt kept place := by
      refine .of_fileAt ?_
      calc kept.fileAt place
        _ = after.files.fileAt place := Tree.fileAt_keepDatabase_elsewhere apart _
        _ = desk.files.fileAt place := same
        _ = files.fileAt place := by rw [begun, Tree.fileAt_keepDatabase_elsewhere apart]
    exact ⟨alike.bytes, alike.catalog, alike.records ▸ .refl order place _⟩

/-- The desk of a command, with ledger and definitions opened. -/
structure Order.Sits (order : Order) (files : Tree) (database : Database) (desk : Desk) : Prop where
  needed : order.command.needsLedger = true
  opened : files.openDatabase .ledger true order.settings.ledger = .ok database
  files : desk.files = files.keepDatabase order.settings.ledger database
  ledger : desk.ledger = database.ledger
  outage : desk.outage = {}
  shelf : order.command.needsShelf = false ∧ desk.shelf = .nowhere ∨
    order.command.needsShelf = true ∧ openShelf desk.files order.settings.source = .ok desk.shelf

/-- The source that a command works on. -/
def Order.source (order : Order) : Option Source :=
  if order.command.needsShelf then order.settings.source else none

/-- A shelf that could be opened is the table of a database that was there, or a folder. The cases
are the sources; without one no shelf is opened. -/
theorem openShelf_eq_ok {source : Option Source} {shelf : Shelf}
    (opened : openShelf files source = .ok shelf) :
    (∃ path found, source = some (.database path) ∧
        files.openDatabase .definitions false path = .ok found ∧ shelf = .table found.catalog) ∨
      ∃ root, source = some (.folder root) ∧ shelf = .folder root := by
  unfold openShelf at opened
  split at opened
  · cases opened
  · rename_i path
    cases loaded : files.openDatabase .definitions false path with
    | error failure => simp [loaded, bind, Except.bind] at opened
    | ok found =>
      rw [loaded] at opened
      exact .inl ⟨path, found, rfl, loaded, (Except.ok.inj opened).symm⟩
  · rename_i root
    rw [Tree.openFolder] at opened
    split at opened
    · exact .inr ⟨root, rfl, (Except.ok.inj opened).symm⟩
    · cases opened
    · cases opened

namespace Order.Sits

variable (sits : order.Sits files database desk) (effect : order.command.Effect desk after)

include sits

/-- The desk of an order can note steps: its ledger has just been opened. -/
theorem noting (orderly : files.Orderly) : desk.Noting := by
  refine ⟨?_, ?_, ?_⟩
  · rw [sits.ledger]
    exact orderly.ledger sits.opened
  · rw [sits.outage]
  · rw [sits.outage]

/-- The files at the desk of an order are orderly, since to open a database puts only an orderly
one into its file. -/
theorem orderlyDesk (orderly : files.Orderly) : desk.files.Orderly := by
  rw [sits.files]
  exact orderly.keepDatabase _ (orderly.ledger sits.opened).restore

/-- A place that the opened shelf owns is one that the order owns: both belong to the same
source. -/
theorem owns (folder : desk.shelf.Owns order.command.Names place) : order.Owns place := by
  obtain ⟨root, shelf, owned⟩ := folder
  rcases sits.shelf with ⟨_, nowhere⟩ | ⟨_, opened⟩
  · rw [nowhere] at shelf
    cases shelf
  · obtain ⟨path, found, _, _, table⟩ | ⟨other, source, same⟩ := openShelf_eq_ok opened
    · rw [table] at shelf
      cases shelf
    · rw [same] at shelf
      cases shelf
      exact ⟨root, source, owned⟩

/-- A place that an order spares is not the file of last changes of its ledger. -/
theorem settled (spares : order.Spares place) (file : Path)
    (keeper : order.settings.ledger.keeper = .file file) : place ≠ file.changes.collapse :=
  spares.changes file (.inl ⟨sits.needed, keeper⟩)

/-- The definitions can still be found where they were opened: closing the ledger writes another
file, or the same database with the definitions in it, and the way to them stays open. -/
theorem readable {file : Path} (loaded : desk.files.loadDatabase file = .ok found)
    (still : after.files = desk.files) (spares : order.Spares file.collapse) :
    Tree.Readable
      (after.files.keepDatabase order.settings.ledger { database with ledger := after.ledger })
      file := by
  have readable : after.files.Readable file := still ▸ Tree.loadDatabase_readable loaded
  by_cases kept : ∃ other, order.settings.ledger.keeper = .file other
  · obtain ⟨other, keeper⟩ := kept
    have finds := Tree.loadDatabase_finds (Tree.openDatabase_loads keeper sits.opened)
    have stands : after.files.fileAt other.collapse = some (.database database) := by
      rw [still, sits.files]
      exact Tree.fileAt_keepDatabase_self keeper finds.takes
    exact readable.keepDatabase keeper stands (sits.settled spares other keeper) _
  · rw [Tree.keepDatabase_of_unkept (not_exists.mp kept)]
    exact readable

include effect

/-- The work of an order touches no place that the order spares: what it may touch are its
definitions and its export, and both are owned. -/
theorem fileAt_work (spares : order.Spares place) :
    after.files.fileAt place = desk.files.fileAt place :=
  effect.files place spares.exports fun commits owns => spares.definitions commits (sits.owns owns)

/-- The ledger in its file, with what the work has made of it. -/
theorem leaves_ledger (spares : order.Spares place) :
    order.Leaves files
      (after.files.keepDatabase order.settings.ledger { database with ledger := after.ledger })
      place := by
  obtain ⟨bytes, catalog, records⟩ := leaves_keepLedger sits.opened sits.files sits.ledger effect
    (sits.fileAt_work effect spares) (sits.settled spares)
  exact ⟨fun _ => bytes, fun _ => catalog, records⟩

/-- The definitions in their file, with what the work has made of them. Where the ledger is kept
in the same file, it is the one that has just been written there. -/
theorem leaves_catalog {path : Path} {catalog : Option Catalog}
    (needs : order.command.needsShelf = true)
    (source : order.settings.source = some (.database path))
    (loaded : desk.files.openDatabase .definitions false path = .ok found)
    (table : desk.shelf = .table found.catalog) (shelf : after.shelf = .table catalog)
    (spares : order.Spares place) :
    order.Leaves files ((after.files.keepDatabase order.settings.ledger
      { database with ledger := after.ledger }).keepCatalog path catalog) place := by
  have ledger := sits.leaves_ledger effect spares
  have settled (file : Path) (keeper : path.keeper = .file file) : place ≠ file.changes.collapse :=
    spares.changes file (.inr ⟨needs, path, source, keeper⟩)
  by_cases here : ∃ file, path.keeper = .file file ∧ place = file.collapse
  · obtain ⟨file, keeper, rfl⟩ := here
    have loads := Tree.openDatabase_loads keeper loaded
    have still : after.files = desk.files :=
      effect.still (Command.target?_eq_none (.inl needs)) (by simp [table])
    obtain ⟨records, same⟩ :=
      (sits.readable loads still spares).keepCatalog keeper (settled file keeper) catalog
    have unchanged (commits : order.command.commits = false) := by
      refine same ?_
      -- Without a commit the work hands back the table that was opened.
      have opened : catalog = found.catalog := by
        have shelves := effect.shelf commits
        rw [shelf, table] at shelves
        exact Shelf.table.inj shelves
      have begun := (Tree.sameAt_keepOpened sits.opened (sits.settled spares)).catalog
      rw [opened, (Tree.loadDatabase_finds loads).catalog, ledger.catalog commits, sits.files, begun]
    exact ⟨fun commits => (unchanged commits).bytes.trans (ledger.bytes commits),
      fun commits => (unchanged commits).catalog.trans (ledger.catalog commits),
      records ▸ ledger.records⟩
  · refine ledger.trans_sameAt (.of_fileAt (Tree.fileAt_keepDatabase_elsewhere ?_ _))
    exact fun file keeper => ⟨fun same => here ⟨file, keeper, same⟩, settled file keeper⟩

/-- Whatever the work has done, a place that the command spares is left as it may be. -/
theorem leaves (spares : order.Spares place) :
    order.Leaves files
      (keepShelf (after.files.keepDatabase order.settings.ledger
        { database with ledger := after.ledger }) order.source after.shelf) place := by
  have ledger := sits.leaves_ledger effect spares
  rcases sits.shelf with ⟨unneeded, _⟩ | ⟨needs, opened⟩
  · have nothing : order.source = none := by rw [Order.source, unneeded]; rfl
    rw [nothing]
    exact ledger
  · have same : order.source = order.settings.source := by rw [Order.source, if_pos needs]
    rw [same]
    obtain ⟨path, found, source, loaded, table⟩ | ⟨root, source, _⟩ := openShelf_eq_ok opened
    · rw [source]
      cases shelf : after.shelf with
      | table catalog => exact sits.leaves_catalog effect needs source loaded table shelf spares
      | folder root => exact ledger
      | nowhere => exact ledger
    · rw [source]
      exact ledger

/-- Where no database is kept, even the file is the same. The databases of the ledger and of the
definitions are written to their own files, and the work spares the place. -/
theorem fileAt_elsewhere (spares : order.Spares place)
    (unkept : ∀ file, order.Keeps file → place ≠ file.collapse) :
    (keepShelf (after.files.keepDatabase order.settings.ledger
      { database with ledger := after.ledger }) order.source after.shelf).fileAt place =
      files.fileAt place := by
  have apart (file : Path) (kept : order.Keeps file) :
      place ≠ file.collapse ∧ place ≠ file.changes.collapse :=
    ⟨unkept file kept, spares.changes file kept⟩
  have ledger (file : Path) (keeper : order.settings.ledger.keeper = .file file) :=
    apart file (.inl ⟨sits.needed, keeper⟩)
  have kept : (after.files.keepDatabase order.settings.ledger
      { database with ledger := after.ledger }).fileAt place = files.fileAt place := by
    rw [Tree.fileAt_keepDatabase_elsewhere ledger, sits.fileAt_work effect spares, sits.files,
      Tree.fileAt_keepDatabase_elsewhere ledger]
  unfold keepShelf
  split
  · rename_i path catalog source shelf
    rw [Tree.keepCatalog, Tree.fileAt_keepDatabase_elsewhere, kept]
    intro file keeper
    obtain ⟨needs, same⟩ : order.command.needsShelf = true ∧
        order.settings.source = some (.database path) := by
      simpa [Order.source] using source
    exact apart file (.inr ⟨needs, path, same, keeper⟩)
  · exact kept

/-- The files are orderly after the databases have been closed: the ledger is orderly then, and
all files are that were there before. -/
theorem orderly (orderly : files.Orderly) :
    (keepShelf (after.files.keepDatabase order.settings.ledger
      { database with ledger := after.ledger }) order.source after.shelf).Orderly := by
  have noted : ({ database with ledger := after.ledger } : Database).restore.ledger.Orderly :=
    effect.orderly.restore
  have kept := (effect.orderlyFiles (sits.orderlyDesk orderly)).keepDatabase order.settings.ledger noted
  unfold keepShelf
  split
  · exact kept.keepCatalog _ _
  · exact kept

end Order.Sits

/-- What an order can have made of the files. -/
structure Order.Respects (order : Order) (before after : Tree) : Prop where
  leaves : ∀ place, order.Spares place → order.Leaves before after place
  elsewhere : ∀ place, order.Spares place → (∀ file, order.Keeps file → place ≠ file.collapse) →
    after.fileAt place = before.fileAt place
  orderly : after.Orderly

/-- An order that changes nothing respects the files. -/
theorem Order.Respects.refl (order : Order) (orderly : files.Orderly) : order.Respects files files :=
  ⟨fun _ _ => .of_sameAt (.of_fileAt rfl), fun _ _ _ => rfl, orderly⟩

/-- The conclusion of a run decides what is shown and how it ends, and does not touch the
files. -/
theorem conclude_files (rank : Nat) (result : Except Failure Reply) (files : Tree)
    (log : List LogLine) : (conclude rank result files log).files = files := by
  unfold conclude
  split
  · rfl
  · split <;> rfl

/-- A database that is only begun is a new one, in a file that did not exist. -/
theorem Order.respects_beginDatabase (needed : order.command.needsLedger = true)
    (orderly : files.Orderly) :
    order.Respects files (files.beginDatabase order.settings.ledger) := by
  refine ⟨fun place _ => .of_sameAt (Tree.sameAt_beginDatabase files _ place), ?_,
    orderly.beginDatabase _⟩
  intro place _ unkept
  exact Tree.fileAt_beginDatabase_of_ne fun file keeper => unkept file (.inl ⟨needed, keeper⟩)

/-- A database that was opened is kept in its own file, with the records that it had. -/
theorem Order.respects_keepOpened (needed : order.command.needsLedger = true)
    (orderly : files.Orderly)
    (opened : files.openDatabase .ledger true order.settings.ledger = .ok database) :
    order.Respects files (files.keepDatabase order.settings.ledger database) := by
  refine ⟨fun place spares => .of_sameAt (Tree.sameAt_keepOpened opened fun file keeper => ?_),
    fun place spares unkept => Tree.fileAt_keepDatabase_elsewhere (fun file keeper => ?_) database,
    orderly.keepDatabase _ (orderly.ledger opened).restore⟩
  · exact spares.changes file (.inl ⟨needed, keeper⟩)
  · have kept : order.Keeps file := .inl ⟨needed, keeper⟩
    exact ⟨unkept file kept, spares.changes file kept⟩

/-- A run with a ledger respects the files, in each of the ways in which it can end: the ledger
cannot be opened, the definitions cannot be opened, or the work is done and both are closed. -/
theorem Order.respects_runWithLedger (needed : order.command.needsLedger = true)
    (orderly : files.Orderly) (rank : Nat) (now : Stamp) :
    order.Respects files (runWithLedger order.settings rank order.command now files).files := by
  rw [runWithLedger]
  split
  · rw [conclude_files]
    exact order.respects_beginDatabase needed orderly
  · rename_i database opened
    simp only
    split
    · rw [conclude_files]
      exact order.respects_keepOpened needed orderly opened
    · rename_i shelf shelved
      have sits : order.Sits files database
          { shelf, ledger := database.ledger, now
            files := files.keepDatabase order.settings.ledger database } := by
        refine ⟨needed, opened, rfl, rfl, rfl, ?_⟩
        cases needs : order.command.needsShelf with
        | false =>
          rw [needs] at shelved
          exact .inl ⟨rfl, (Except.ok.inj shelved).symm⟩
        | true =>
          rw [needs] at shelved
          exact .inr ⟨rfl, shelved⟩
      have effect := (sits.noting orderly).effect (sits.orderlyDesk orderly).proper order.settings
        order.command
      rw [conclude_files]
      exact ⟨fun place => sits.leaves effect, fun place => sits.fileAt_elsewhere effect,
        sits.orderly effect orderly⟩

/-- A command line that is understood, with settings that can be made, is one run of its
command with the ledger. -/
theorem runCommandLine_withLedger {arguments : List Text} {environment : List (Text × Text)}
    {general : GeneralOptions} {command : Command} {settings : Settings} {rank : Nat}
    (read : readCommandLine arguments = .ok (general, command))
    (resolved : resolveSettings general command environment files = .ok settings)
    (shown : shownRank settings.logLevel = .ok rank) (needed : command.needsLedger = true)
    (now : Stamp) : runCommandLine arguments environment now files =
      runWithLedger settings rank command now files := by
  rw [runCommandLine, read]
  simp only [resolved, shown]
  exact if_pos needed

/-- A command that needs no ledger leaves all files alone. -/
theorem runApart_files {command : Command} (apart : command.needsLedger = false)
    (proper : files.Proper) (settings : Settings) (rank : Nat) (now : Stamp) :
    (runApart settings rank command now files).files = files := by
  have noting : Desk.Noting { shelf := .nowhere, files, now } := ⟨Tree.orderly_new, rfl, rfl⟩
  rw [runApart, conclude_files]
  exact (noting.effect proper settings command).still (Command.target?_eq_none (.inr apart)) (by simp)

end Run

end SqlRenewal
