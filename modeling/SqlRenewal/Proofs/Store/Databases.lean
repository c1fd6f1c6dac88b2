import SqlRenewal.Store.Opening
import SqlRenewal.Proofs.Files.Standing
import SqlRenewal.Proofs.Ledger.Stack

/-!
# Databases among the files

Opening a database and keeping it again leaves the definitions and the records of every
database as they were, and the bytes of every plain file. Only the file of last changes
beside the database is lost.
-/
namespace SqlRenewal

/-! ### The file of last changes -/

namespace Path

/-- The file of the last changes stands beside that of the database. -/
theorem changes_eq_child (file : Path) :
    file.changes = file.directory.child (file.name ++ changesSuffix) := rfl

/-- The name of the file of last changes is longer than that of any dots. -/
theorem changes_name_ne (file : Path) : file.name ++ changesSuffix ≠ ['.', '.'] := by
  intro same
  have last := congrArg List.getLast? same
  simp [changesSuffix] at last

/-- The file of the last changes stays beside that of the database after dots are resolved. -/
theorem collapse_changes (file : Path) :
    file.changes.collapse = file.directory.collapse.child (file.name ++ changesSuffix) := by
  rw [changes_eq_child, collapse_child _ file.changes_name_ne]

/-- No step leads from a directory to the same place as a longer name: a step back ends in a pair
of points or has fewer names, and a step on has one name more. -/
theorem collapse_child_ne (folder : Path) (name : Text) :
    (folder.child name).collapse ≠ folder.collapse.child (name ++ changesSuffix) := by
  intro same
  by_cases back : name = ['.', '.']
  · have parts := congrArg Path.parts same
    rw [back] at parts
    simp only [collapse, child, List.foldl_append, List.foldl_cons, List.foldl_nil] at parts
    -- A step back ends in a pair of points, or has fewer names than the directory.
    generalize folder.parts.foldl (step folder.anchor) [] = reached at parts
    cases reached with
    | nil =>
      simp only [step] at parts
      split at parts
      · contradiction
      · split at parts <;> simp [changesSuffix] at parts
    | cons last before =>
      simp only [step] at parts
      split at parts
      · contradiction
      · split at parts
        · simp [changesSuffix] at parts
        · have lengths := congrArg List.length parts
          simp only [List.length_reverse, List.length_append, List.length_cons] at lengths
          omega
  · rw [collapse_child _ back] at same
    have lengths := congrArg List.length (child_inj same)
    simp [changesSuffix] at lengths

/-- A database and its last changes have different places. The name of the second is that of the
first with an ending, and a path without a name has fewer parts. -/
theorem collapse_ne_changes (file : Path) : file.collapse ≠ file.changes.collapse := by
  rw [collapse_changes]
  by_cases bare : file.parts = []
  · intro same
    have parts := congrArg Path.parts same
    simp [collapse, child, bare] at parts
  · have apart := collapse_child_ne file.directory file.name
    rwa [← eq_child bare] at apart

/-- The file of a database has a path as texts spell them, because it is made by cutting a text at
slashes. -/
theorem unsplit_keeper {path file : Path} (keeper : path.keeper = .file file) : file.Unsplit := by
  simp only [Path.keeper] at keeper
  split at keeper
  · cases keeper
  · split at keeper
    · rw [Keeper.ofKind] at keeper
      split at keeper
      · cases keeper
      · split at keeper
        · cases keeper
        · cases keeper
          exact unsplit_ofText _
    · split at keeper
      · cases keeper
      · split at keeper
        · cases keeper
        · cases keeper
          have unsplit := unsplit_ofText ((path.spelling.takeWhile (· ≠ '\x00')).map
            fun c => if c = '\\' then '/' else c)
          exact Unsplit.collapse unsplit

end Path

/-- A ledger with its table of events is restored to itself. -/
theorem Ledger.Orderly.restore {ledger : Ledger} (orderly : ledger.Orderly) :
    ledger.restore.Orderly :=
  ⟨⟨_, rfl⟩, orderly.increasing, orderly.bounded⟩

namespace Tree

variable {tree after : Tree} {path file place : Path} {database : Database}

/-! ### What a place holds -/

/-- The bytes of the plain file at a place. -/
def bytesAt (tree : Tree) (place : Path) : Option (List UInt8) :=
  match tree.fileAt place with
  | some (.file bytes) => some bytes
  | _ => none

/-- The database at a place. -/
def databaseAt (tree : Tree) (place : Path) : Option Database :=
  match tree.fileAt place with
  | some (.database database) => some database
  | _ => none

/-- The definitions in the database at a place. -/
def catalogAt (tree : Tree) (place : Path) : Catalog :=
  ((tree.databaseAt place).bind Database.catalog).getD []

/-- The records in the database at a place. -/
def recordsAt (tree : Tree) (place : Path) : List Record :=
  ((tree.databaseAt place).map fun database => database.ledger.records).getD []

/-- Both trees have the same bytes, definitions and records at a place. -/
structure SameAt (tree after : Tree) (place : Path) : Prop where
  bytes : after.bytesAt place = tree.bytesAt place
  catalog : after.catalogAt place = tree.catalogAt place
  records : after.recordsAt place = tree.recordsAt place

/-- Where the same file stands, nothing has changed. -/
theorem SameAt.of_fileAt (same : after.fileAt place = tree.fileAt place) :
    tree.SameAt after place := by
  constructor
  · rw [bytesAt, same, bytesAt]
  · rw [catalogAt, databaseAt, same, catalogAt, databaseAt]
  · rw [recordsAt, databaseAt, same, recordsAt, databaseAt]

/-- A database at a place is the file there. Bytes and directories are no databases. -/
theorem databaseAt_eq_some (stands : tree.databaseAt place = some database) :
    tree.fileAt place = some (.database database) := by
  rw [databaseAt] at stands
  split at stands
  · rename_i found
    cases stands
    exact found
  · cases stands

/-- A file that is a database is the database at its place. -/
theorem databaseAt_of_fileAt (stands : tree.fileAt place = some (.database database)) :
    tree.databaseAt place = some database := by
  rw [databaseAt, stands]

/-- The tree is a proper one, and every database has its records in order when it is
opened. -/
structure Orderly (tree : Tree) : Prop where
  proper : tree.Proper
  ledgers : ∀ place database, tree.databaseAt place = some database →
    database.restore.ledger.Orderly

/-- Files are orderly if every database among them was there before, or is orderly itself. -/
theorem Orderly.of_fileAt (orderly : tree.Orderly) (proper : after.Proper)
    (old : ∀ place database, after.fileAt place = some (.database database) →
      tree.fileAt place = some (.database database) ∨ database.restore.ledger.Orderly) :
    after.Orderly := by
  refine ⟨proper, ?_⟩
  intro place database stands
  rcases old place database (databaseAt_eq_some stands) with stood | made
  · exact orderly.ledgers place database (databaseAt_of_fileAt stood)
  · exact made

/-- Files are orderly if all databases among their entries are, since a database at a place is one
of the entries. -/
theorem Orderly.of_entries (proper : tree.Proper)
    (all : ∀ entry ∈ tree.entries, ∀ database, entry.2 = .database database →
      database.restore.ledger.Orderly) : tree.Orderly := by
  refine ⟨proper, ?_⟩
  intro place database stands
  have found := databaseAt_eq_some stands
  rw [fileAt, entry?] at found
  split at found
  · cases found
  · obtain ⟨listed, _⟩ := Option.filter_eq_some_iff.mp found
    obtain ⟨entry, member, same⟩ := Option.map_eq_some_iff.mp listed
    exact all entry (List.mem_of_find?_eq_some member) database same

/-- A file of bytes is no database, so every database of the new tree was one of the old tree, and
orderly there. -/
theorem Orderly.putFile {bytes : List UInt8} (orderly : tree.Orderly)
    (proper : (tree.put path (.file bytes)).Proper) : (tree.put path (.file bytes)).Orderly := by
  refine orderly.of_fileAt proper ?_
  intro place database stands
  by_cases here : place = path.collapse
  · rw [here] at stands
    cases eq_of_fileAt_put stands
  · rw [fileAt_put_of_ne here] at stands
    exact .inl stands

/-! ### Keeping a database -/

/-- The file of last changes is removed, if it can be found, and nothing else. A directory of that
name is not removed. -/
theorem settleChanges_cases (tree : Tree) (file : Path) :
    tree.settleChanges file = tree ∨
      tree.settleChanges file = tree.erase file.changes ∧
        tree.entry? file.changes.collapse ≠ some .directory := by
  rw [settleChanges, removeFile]
  split
  · exact .inl rfl
  · rename_i entry other stands
    refine .inr ⟨rfl, ?_⟩
    rw [look_eq_ok stands]
    exact fun directory => other (Option.some.inj directory)
  · exact .inl rfl

/-- To settle the last changes touches their own file only. -/
theorem entry?_settleChanges_of_ne (apart : place ≠ file.changes.collapse) :
    Tree.entry? (tree.settleChanges file) place = tree.entry? place := by
  obtain same | ⟨erased, _⟩ := settleChanges_cases tree file
  · rw [same]
  · rw [erased, entry?_erase_of_ne apart]

/-- A database without a file of its own leaves all files alone: it is kept in memory, in a home
directory, or not at all. -/
theorem keepDatabase_of_unkept (unkept : ∀ file, path.keeper ≠ .file file) (database : Database) :
    tree.keepDatabase path database = tree := by
  rw [keepDatabase]
  split
  · rename_i file keeper
    exact absurd keeper (unkept file)
  · rfl

section Keep

variable (keeper : path.keeper = .file file)

include keeper

/-- To keep a database touches its own file and that of its last changes only. -/
theorem entry?_keepDatabase_of_ne (database : Database) (apart : place ≠ file.collapse)
    (settled : place ≠ file.changes.collapse) :
    Tree.entry? (tree.keepDatabase path database) place = tree.entry? place := by
  simp only [keepDatabase, keeper]
  rw [entry?_settleChanges_of_ne settled, entry?_put_of_ne apart]

/-- Every other file is the same after a database is kept. -/
theorem fileAt_keepDatabase_of_ne (database : Database) (apart : place ≠ file.collapse)
    (settled : place ≠ file.changes.collapse) :
    (tree.keepDatabase path database).fileAt place = tree.fileAt place := by
  rw [fileAt, entry?_keepDatabase_of_ne keeper database apart settled, fileAt]

variable (takes : tree.entry? file.collapse ≠ some .directory)

include takes

/-- A database that is kept stands in its own file: the file of last changes has another name. -/
theorem fileAt_keepDatabase_self :
    (tree.keepDatabase path database).fileAt file.collapse = some (.database database) := by
  simp only [keepDatabase, keeper]
  rw [fileAt, entry?_settleChanges_of_ne file.collapse_ne_changes]
  exact fileAt_put_self takes rfl

/-- No directory is lost to a database, which is written where a file stood or could stand. -/
theorem keepsDirectories_keepDatabase : tree.KeepsDirectories (tree.keepDatabase path database) := by
  simp only [keepDatabase, keeper]
  have put : tree.KeepsDirectories (tree.put file (.database database)) := keepsDirectories_put takes
  obtain same | ⟨erased, changes⟩ := settleChanges_cases (tree.put file (.database database)) file
  · rwa [same]
  · rw [erased]
    exact put.trans (keepsDirectories_erase changes)

end Keep

/-- Only the database that is kept can be a new one: at its own place it is what stands there, and
any other place has what it had, or nothing. -/
theorem fileAt_keepDatabase (path : Path) (database : Database) {place : Path} {entry : Entry}
    (stands : (tree.keepDatabase path database).fileAt place = some entry) :
    tree.fileAt place = some entry ∨ entry = .database database := by
  rw [keepDatabase] at stands
  split at stands
  · rename_i file keeper
    have stood : (tree.put file (.database database)).fileAt place = some entry := by
      obtain same | ⟨erased, _⟩ := settleChanges_cases (tree.put file (.database database)) file
      · rwa [same] at stands
      · rw [erased, fileAt_erase] at stands
        split at stands
        · cases stands
        · exact stands
    by_cases here : place = file.collapse
    · rw [here] at stood
      exact .inr (eq_of_fileAt_put stood)
    · rw [fileAt_put_of_ne here] at stood
      exact .inl stood
  · exact .inl stands

/-- A tree stays proper when a database is kept: the database is put in its file, and at most one
entry is removed. -/
theorem Proper.keepDatabase (proper : tree.Proper) (path : Path) (database : Database) :
    (tree.keepDatabase path database).Proper := by
  rw [Tree.keepDatabase]
  split
  · rename_i file keeper
    have put : (tree.put file (.database database)).Proper := proper.put (Path.unsplit_keeper keeper)
    obtain same | ⟨erased, _⟩ := settleChanges_cases (tree.put file (.database database)) file
    · rwa [same]
    · rw [erased]
      exact put.erase _
  · exact proper

/-- Files stay orderly when a database with an orderly ledger is kept, because all others are left
alone. -/
theorem Orderly.keepDatabase (orderly : tree.Orderly) (path : Path)
    (kept : database.restore.ledger.Orderly) : (tree.keepDatabase path database).Orderly := by
  refine orderly.of_fileAt (orderly.proper.keepDatabase path database) ?_
  intro place other stands
  rcases fileAt_keepDatabase path database stands with stood | new
  · exact .inl stood
  · cases new
    exact .inr kept

/-! ### Opening a database -/

/-- A database that is loaded is the one in the file, with its missing tables, or a new one where
there is no file. -/
theorem loadDatabase_eq_ok (loaded : tree.loadDatabase file = .ok database) :
    (∃ kept, tree.look file = .ok (.database kept) ∧ database = kept.restore) ∨
      tree.entry? file.collapse = none ∧ database = {} := by
  rw [loadDatabase] at loaded
  split at loaded
  · cases loaded
  · split at loaded
    · rename_i kept stands
      cases loaded
      exact .inl ⟨kept, stands, rfl⟩
    · cases loaded
    · rename_i missed missing
      split at loaded
      · rename_i folder
        cases loaded
        exact .inr ⟨free_of_missing_path missing folder, rfl⟩
      · cases loaded
    · cases loaded

/-- A path that means the memory is kept there. -/
theorem keeper_of_isMemory (memory : path.isMemory = true) : path.keeper = .memory := by
  rw [Path.isMemory, beq_iff_eq] at memory
  simp only [Path.keeper, memory]
  rfl

/-- A database that is opened is loaded from its file, or is a new one where no file keeps it. -/
theorem openDatabase_eq_ok {kind : Place} {create : Bool}
    (opened : tree.openDatabase kind create path = .ok database) :
    (∃ file, path.keeper = .file file ∧ tree.loadDatabase file = .ok database) ∨
      (∀ file, path.keeper ≠ .file file) ∧ database = {} := by
  rw [openDatabase] at opened
  by_cases memory : path.isMemory = true
  · rw [if_pos memory] at opened
    refine .inr ⟨?_, (Except.ok.inj opened).symm⟩
    simp [keeper_of_isMemory memory]
  · rw [if_neg memory] at opened
    cases held : tree.holds path with
    | error fault => simp [held, Except.mapError, bind, Except.bind] at opened
    | ok present =>
      simp only [held, Except.mapError, bind, Except.bind, pure, Except.pure] at opened
      split at opened
      · cases opened
      · cases keeper : path.keeper with
        | memory =>
          simp only [keeper, Except.ok.injEq] at opened
          exact .inr ⟨by simp, opened.symm⟩
        | elsewhere =>
          simp only [keeper, Except.ok.injEq] at opened
          exact .inr ⟨by simp, opened.symm⟩
        | unusable => simp [keeper] at opened
        | file file =>
          simp only [keeper] at opened
          exact .inl ⟨file, rfl, opened⟩

/-- What opening finds in the file of a database. -/
structure Finds (tree : Tree) (file : Path) (database : Database) : Prop where
  takes : tree.entry? file.collapse ≠ some .directory
  bytes : tree.bytesAt file.collapse = none
  catalog : database.catalog.getD [] = tree.catalogAt file.collapse
  records : database.ledger.records = tree.recordsAt file.collapse
  orderly : tree.Orderly → database.ledger.Orderly

/-- A database is not read as bytes. -/
theorem bytesAt_of_fileAt (stands : tree.fileAt place = some (.database database)) :
    tree.bytesAt place = none := by
  rw [bytesAt, stands]

/-- Where no file stands there is nothing to see, in any of the views. -/
theorem views_of_free (free : tree.fileAt place = none) :
    tree.bytesAt place = none ∧ tree.catalogAt place = [] ∧ tree.recordsAt place = [] := by
  simp [bytesAt, catalogAt, recordsAt, databaseAt, free]

/-- A new database has an orderly ledger. -/
theorem orderly_new : (Database.restore {}).ledger.Orderly :=
  .ofEmpty ⟨[], rfl⟩ rfl

/-- A database that was loaded has what can be seen in its file: it was there and is read as it
is, or nothing was there and it is new. -/
theorem loadDatabase_finds (loaded : tree.loadDatabase file = .ok database) :
    tree.Finds file database := by
  obtain ⟨kept, stands, rfl⟩ | ⟨free, rfl⟩ := loadDatabase_eq_ok loaded
  · have here := fileAt_of_look stands rfl
    have found := databaseAt_of_fileAt here
    constructor
    · exact takes_of_fileAt here
    · exact bytesAt_of_fileAt here
    · rw [catalogAt, found]
      rfl
    · rw [recordsAt, found]
      rfl
    · exact fun orderly => orderly.ledgers _ _ found
  · have nothing : tree.fileAt file.collapse = none := by rw [fileAt, free, Option.filter_none]
    obtain ⟨bytes, catalog, records⟩ := views_of_free nothing
    constructor
    · rw [free]
      exact Option.some_ne_none _ ∘ Eq.symm
    · exact bytes
    · rw [catalog]
      rfl
    · rw [records]
    · exact fun _ => orderly_new

/-- A database that is kept as it was found leaves the same everywhere: its file has the same in
it, and no other place is touched but that of the last changes. -/
theorem Finds.sameAt_keep (finds : tree.Finds file database) (keeper : path.keeper = .file file)
    (settled : place ≠ file.changes.collapse) :
    tree.SameAt (tree.keepDatabase path database) place := by
  by_cases here : place = file.collapse
  · subst here
    have stands : (tree.keepDatabase path database).fileAt file.collapse =
      some (.database database) := fileAt_keepDatabase_self keeper finds.takes
    have found := databaseAt_of_fileAt stands
    constructor
    · rw [bytesAt_of_fileAt stands, finds.bytes]
    · rw [← finds.catalog, catalogAt, found]
      rfl
    · rw [← finds.records, recordsAt, found]
      rfl
  · exact .of_fileAt (fileAt_keepDatabase_of_ne keeper database here settled)

/-- A new database that was only begun leaves the same everywhere: it has nothing in it that could
be seen, and no file stood where it was put. -/
theorem sameAt_beginDatabase (tree : Tree) (path place : Path) :
    tree.SameAt (tree.beginDatabase path) place := by
  rw [beginDatabase]
  split
  · rename_i file keeper
    split
    · rename_i missed missing
      rw [Tree.place]
      split
      · rename_i folder
        have free := free_of_missing_path missing folder
        by_cases here : place = file.collapse
        · subst here
          have nothing : tree.fileAt file.collapse = none := by rw [fileAt, free, Option.filter_none]
          obtain ⟨bytes, catalog, records⟩ := views_of_free nothing
          have stands : (tree.put file (.database {})).fileAt file.collapse = some (.database {}) :=
            fileAt_put_self (by simp [free]) rfl
          have found := databaseAt_of_fileAt stands
          constructor
          · rw [bytes]
            exact bytesAt_of_fileAt stands
          · rw [catalog, catalogAt]
            simp only [Except.toOption, Option.getD_some, found]
            rfl
          · rw [records, recordsAt]
            simp only [Except.toOption, Option.getD_some, found]
            rfl
        · exact .of_fileAt (fileAt_put_of_ne here)
      · exact .of_fileAt rfl
    · exact .of_fileAt rfl
  · exact .of_fileAt rfl

/-- To begin a database touches its own file only: either its file is put there, or nothing is
done. -/
theorem fileAt_beginDatabase_of_ne
    (apart : ∀ file, path.keeper = .file file → place ≠ file.collapse) :
    (tree.beginDatabase path).fileAt place = tree.fileAt place := by
  rw [beginDatabase]
  split
  · rename_i file keeper
    split
    · rw [Tree.place]
      split
      · exact fileAt_put_of_ne (apart file keeper)
      · rfl
    · rfl
  · rfl

/-- A tree stays proper when a database is begun where no file stood, because the path of a
database is a proper one. -/
theorem Proper.beginDatabase (proper : tree.Proper) (path : Path) :
    (tree.beginDatabase path).Proper := by
  rw [Tree.beginDatabase]
  split
  · rename_i file keeper
    split
    · rw [Tree.place]
      split
      · exact proper.put (Path.unsplit_keeper keeper)
      · exact proper
    · exact proper
  · exact proper

/-- Files stay orderly when a database is begun, because it is a new one, and all others stand
where they stood. -/
theorem Orderly.beginDatabase (orderly : tree.Orderly) (path : Path) :
    (tree.beginDatabase path).Orderly := by
  refine orderly.of_fileAt (orderly.proper.beginDatabase path) ?_
  intro place database stands
  rw [Tree.beginDatabase] at stands
  split at stands
  · rename_i file keeper
    split at stands
    · rw [Tree.place] at stands
      split at stands
      · by_cases here : place = file.collapse
        · rw [here] at stands
          cases eq_of_fileAt_put stands
          exact .inr orderly_new
        · rw [← fileAt_put_of_ne here]
          exact .inl stands
      · exact .inl stands
    · exact .inl stands
  · exact .inl stands

/-! ### Definitions and ledger in one file -/

/-- The database that a file keeps is the one that is found there. -/
theorem keptDatabase_of_look (stands : tree.look file = .ok (.database database)) :
    tree.keptDatabase (.file file) = database := by
  simp [keptDatabase, get?, stands, Except.toOption]

/-- A database that is kept with other definitions is a new one, or had been there. -/
theorem keptDatabase_cases (tree : Tree) (file : Path) :
    tree.keptDatabase (.file file) = {} ∨
      tree.fileAt file.collapse = some (.database (tree.keptDatabase (.file file))) := by
  simp only [keptDatabase, get?]
  cases stands : tree.look file with
  | error fault => exact .inl rfl
  | ok entry =>
    cases entry with
    | directory => exact .inl rfl
    | file bytes => exact .inl rfl
    | database database => exact .inr (fileAt_of_look stands rfl)

/-- A database is found at the place, or nothing is. -/
structure Readable (tree : Tree) (file : Path) : Prop where
  takes : tree.entry? file.collapse ≠ some .directory
  reached : (∃ database, tree.look file = .ok (.database database)) ∨
    tree.fileAt file.collapse = none

/-- A file from which a database was loaded can be read as one. -/
theorem loadDatabase_readable (loaded : tree.loadDatabase file = .ok database) :
    tree.Readable file := by
  refine ⟨(loadDatabase_finds loaded).takes, ?_⟩
  obtain ⟨kept, stands, _⟩ | ⟨free, _⟩ := loadDatabase_eq_ok loaded
  · exact .inl ⟨kept, stands⟩
  · exact .inr (by rw [fileAt, free, Option.filter_none])

/-- Another database that is kept in its file does not stand in the way of reading one, because
the ways to it are kept, and its file is put there as a whole. -/
theorem Readable.keepDatabase (readable : tree.Readable file) {other : Path} {old : Database}
    (keeper : path.keeper = .file other)
    (stands : tree.fileAt other.collapse = some (.database old))
    (settled : file.collapse ≠ other.changes.collapse) (database : Database) :
    (tree.keepDatabase path database).Readable file := by
  have takes := takes_of_fileAt stands
  have directories : tree.KeepsDirectories (tree.keepDatabase path database) :=
    keepsDirectories_keepDatabase keeper takes
  by_cases here : file.collapse = other.collapse
  · have self : (tree.keepDatabase path database).fileAt file.collapse =
        some (.database database) := by
      rw [here]
      exact fileAt_keepDatabase_self keeper takes
    refine ⟨takes_of_fileAt self, .inl ⟨database, ?_⟩⟩
    rcases readable.reached with ⟨found, reached⟩ | nothing
    · exact look_of_keepsDirectories directories reached (Option.filter_eq_some_iff.mp self).1
    · rw [here, stands] at nothing
      cases nothing
  · have same : Tree.entry? (tree.keepDatabase path database) file.collapse =
      tree.entry? file.collapse := entry?_keepDatabase_of_ne keeper database here settled
    refine ⟨same ▸ readable.takes, ?_⟩
    rcases readable.reached with ⟨found, reached⟩ | nothing
    · exact .inl ⟨found, look_of_keepsDirectories directories reached
        (same.trans (look_eq_ok reached))⟩
    · exact .inr (by rw [fileAt, same, ← fileAt, nothing])

/-- The ledger stays when the definitions are kept in its file: the database that is there is read
first, and only its table is replaced. -/
theorem Readable.keepCatalog (readable : tree.Readable file) (keeper : path.keeper = .file file)
    (settled : place ≠ file.changes.collapse) (catalog : Option Catalog) :
    (tree.keepCatalog path catalog).recordsAt place = tree.recordsAt place ∧
      (catalog.getD [] = tree.catalogAt file.collapse →
        tree.SameAt (tree.keepCatalog path catalog) place) := by
  have ledger : (tree.keptDatabase path.keeper).ledger.records = tree.recordsAt file.collapse ∧
      tree.bytesAt file.collapse = none := by
    rw [keeper]
    rcases readable.reached with ⟨found, reached⟩ | nothing
    · have stands := fileAt_of_look reached rfl
      rw [keptDatabase_of_look reached, recordsAt, databaseAt_of_fileAt stands]
      exact ⟨rfl, bytesAt_of_fileAt stands⟩
    · obtain ⟨bytes, _, records⟩ := views_of_free nothing
      obtain new | old := keptDatabase_cases tree file
      · rw [new, records]
        exact ⟨rfl, bytes⟩
      · rw [nothing] at old
        cases old
  by_cases here : place = file.collapse
  · subst here
    have stands : (tree.keepCatalog path catalog).fileAt file.collapse =
        some (.database { tree.keptDatabase path.keeper with catalog }) :=
      fileAt_keepDatabase_self keeper readable.takes
    have found := databaseAt_of_fileAt stands
    have records : (tree.keepCatalog path catalog).recordsAt file.collapse =
        tree.recordsAt file.collapse := by
      rw [← ledger.1, recordsAt, found]
      rfl
    refine ⟨records, fun same => ⟨?_, ?_, records⟩⟩
    · rw [bytesAt_of_fileAt stands, ledger.2]
    · rw [← same, catalogAt, found]
      rfl
  · have same : (tree.keepCatalog path catalog).fileAt place = tree.fileAt place :=
      fileAt_keepDatabase_of_ne keeper _ here settled
    have alike : tree.SameAt (tree.keepCatalog path catalog) place := .of_fileAt same
    exact ⟨alike.records, fun _ => alike⟩

/-- Files stay orderly when definitions are kept, since the ledger beside them stays what it
was. -/
theorem Orderly.keepCatalog (orderly : tree.Orderly) (path : Path) (catalog : Option Catalog) :
    (tree.keepCatalog path catalog).Orderly := by
  refine orderly.keepDatabase path ?_
  cases keeper : path.keeper with
  | file file =>
    obtain new | old := keptDatabase_cases tree file
    · rw [new]
      exact orderly_new
    · have opened : (tree.keptDatabase (.file file)).restore.ledger.Orderly :=
        orderly.ledgers _ _ (databaseAt_of_fileAt old)
      exact opened
  | memory => exact orderly_new
  | elsewhere => exact orderly_new
  | unusable => exact orderly_new

end Tree

end SqlRenewal
