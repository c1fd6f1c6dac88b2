import SqlRenewal.Work.Desk

/-!
# Opening databases and folders

A database that is opened has all its tables, whatever was missing before. A path
that begins with `:memory:` is a database that no file keeps, and where it spells
nothing else, one that need not exist. A path can begin with a kind of database, of
which only one is at hand; the path of the file is then what follows. Otherwise
backslashes divide names as slashes do, and the detours of a path are left out before
a database is looked for.

Whether a database exists is asked of the path as it is spelled, kind, backslashes and
detours included.
-/
namespace SqlRenewal

/-- The spelling with which the path of a database that no file keeps begins. -/
def memoryMark : Text := ":memory:".toList

/-- The path of a database that is new and that no file keeps. -/
def Path.isMemory (path : Path) : Bool :=
  path.spelling == memoryMark

/-- What keeps a database. -/
inductive Keeper where
  | memory
  | file (path : Path)
  /-- A file in a home directory, which lies apart from the files seen here. -/
  | elsewhere
  /-- A directory, or a kind of database that is not at hand. -/
  | unusable
deriving DecidableEq, Repr

/-- A letter, a digit or an underscore, as the name of a kind of database has them. -/
def isKindChar (c : Char) : Bool :=
  c.isAlphanum || c == '_'

/-- The kind of database that stands at the beginning of a spelling, and the rest: a
name of at least two characters before a colon is one. -/
def splitKind? (spelling : Text) : Option (Text × Text) :=
  (Text.breakAt? ':' spelling).filter fun (kind, rest) =>
    2 ≤ kind.length && kind.all isKindChar && rest.take 2 != ['/', '/']

/-- The kind of database that is at hand, in lower case. -/
def nativeKind : Text := "duckdb".toList

/-- What keeps a database of a kind. -/
def Keeper.ofKind (kind rest : Text) : Keeper :=
  if kind.map Char.toLower ≠ nativeKind then .unusable
  else if rest = [] ∨ rest = memoryMark then .memory
  else .file (Path.ofText rest)

/-- The place that a spelling without a kind leads to. A backslash divides names, but
only slashes anchor a path, and detours are left out. -/
def Path.ofSpelling (spelling : Text) : Path :=
  let divided := Path.ofText (spelling.map fun c => if c = '\\' then '/' else c)
  { divided with anchor := (Path.ofText spelling).anchor }.collapse

/-- What keeps the database of a path. A null character ends the path, and a tilde at
its beginning stands for the home directory. -/
def Path.keeper (path : Path) : Keeper :=
  let spelling := path.spelling.takeWhile (· ≠ '\x00')
  if memoryMark.isPrefixOf spelling then .memory
  else match splitKind? spelling with
    | some (kind, rest) => .ofKind kind rest
    | none =>
      if spelling = ['~'] then .unusable
      else if spelling.head? = some '~' then .elsewhere
      else .file (.ofSpelling spelling)

/-- The suffix of the file that keeps the last changes of a database. -/
def changesSuffix : Text := ".wal".toList

/-- The file beside a database that keeps its last changes. -/
def Path.changes (file : Path) : Path :=
  { file with parts := file.parts.dropLast ++ [file.name ++ changesSuffix] }

namespace Tree

/-- The last changes of a database can be kept beside it: there is room for the name
of their file, and no directory has it. -/
def takesChanges (tree : Tree) (file : Path) : Bool :=
  decide (Utf8.byteCount file.changes.name ≤ nameLimit) && !tree.isDirectory file.changes

/-- The database in a file. One that does not exist is a new database, in a directory
that does. -/
def loadDatabase (tree : Tree) (file : Path) : Except Failure Database :=
  if !tree.takesChanges file then .error .storage
  else match tree.look file with
    | .ok (.database database) => .ok database.restore
    | .ok _ => .error .storage
    | .error (.missing _) => if tree.isDirectory file.directory then .ok {} else .error .storage
    | .error _ => .error .storage

/-- Opens a database. One that does not exist is made, if that is allowed. -/
def openDatabase (tree : Tree) (place : Place) (create : Bool) (path : Path) :
    Except Failure Database := do
  if path.isMemory then return {}
  let present ← (tree.holds path).mapError Failure.file
  if !present && !create then throw (.notFound place path)
  match path.keeper with
  | .memory => return {}
  | .file file => tree.loadDatabase file
  | .elsewhere => return {}
  | .unusable => throw .storage

/-- The files without the last changes of a database, which are in its own file by
now. -/
def settleChanges (tree : Tree) (file : Path) : Tree :=
  ((tree.removeFile file.changes).toOption).getD tree

/-- Keeps a database in its file, if it has one here. -/
def keepDatabase (tree : Tree) (path : Path) (database : Database) : Tree :=
  match path.keeper with
  | .file file => (tree.put file (.database database)).settleChanges file
  | _ => tree

/-- The files after a database could not be opened: a new one has been begun, if
its directory exists. -/
def beginDatabase (tree : Tree) (path : Path) : Tree :=
  match path.keeper with
  | .file file =>
    match tree.look file with
    | .error (.missing _) => ((tree.place file (.database {})).toOption).getD tree
    | _ => tree
  | _ => tree

/-- The database that a file holds already, or a new one. -/
def keptDatabase (tree : Tree) : Keeper → Database
  | .file file =>
    match tree.get? file with
    | some (.database database) => database
    | _ => {}
  | _ => {}

/-- Keeps a table of definitions in its file, together with the ledger that the
file may hold. -/
def keepCatalog (tree : Tree) (path : Path) (catalog : Option Catalog) : Tree :=
  tree.keepDatabase path { tree.keptDatabase path.keeper with catalog }

/-- Opens a folder of definitions. -/
def openFolder (tree : Tree) (path : Path) : Except Failure Shelf :=
  match tree.look path with
  | .ok .directory => .ok (.folder path)
  | .error (.tooLong place) => .error (.file (.tooLong place))
  | _ => .error (.notFound .folder path)

end Tree

/-- The shelf with its table, an empty one if it was missing. -/
def Shelf.restore : Shelf → Shelf
  | .table catalog => .table (some (catalog.getD []))
  | .folder root => .folder root
  | .nowhere => .nowhere

/-- A shelf whose table was not kept in a file. -/
def Shelf.renewed : Shelf → Shelf
  | .table _ => .table (some [])
  | .folder root => .folder root
  | .nowhere => .nowhere

/-- The desk with all tables that were missing. -/
def Desk.restore (desk : Desk) : Desk :=
  { desk with shelf := desk.shelf.restore, ledger := desk.ledger.restore }

/-- The desk after its databases were closed and opened again. Outages end. What
no file keeps is lost. -/
def Desk.reopen (kept : Bool) (desk : Desk) : Desk :=
  if kept then { desk.restore with outage := {} }
  else { desk with shelf := desk.shelf.renewed, ledger := {}, outage := {} }

end SqlRenewal
