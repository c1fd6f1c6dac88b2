import SqlRenewal.Files.Path
import SqlRenewal.Store.Format
import SqlRenewal.Text.Lines
import SqlRenewal.Text.Quoted

/-!
# Files

The files that a command can see: directories, plain files with their bytes, and
databases. Two spellings of a path that name the same place lead to the same
file.

A path is followed name by name, and the first thing that is wrong with it decides
what is said about it. Names and whole paths have limited lengths, in bytes.
-/
namespace SqlRenewal

/-- What stands at a path. -/
inductive Entry where
  | directory
  | file (bytes : List UInt8)
  | database (database : Database)
deriving DecidableEq, Repr

/-- The entry can be read and written as a file. -/
def Entry.isFile : Entry → Bool
  | .directory => false
  | .file _ => true
  | .database _ => true

/-- Why a file cannot be used. -/
inductive FileFault where
  | missing (path : Path)
  | existing (path : Path)
  | notDirectory (path : Path)
  | directory (path : Path)
  | tooLong (path : Path)
  /-- The path has a null character, which ends a path for the system. -/
  | nullCharacter
deriving DecidableEq, Repr

/-- The wording of a fault: its number, what it means, and the path. -/
def FileFault.message (fault : FileFault) : String :=
  let shown (number : Nat) (meaning : String) (path : Path) :=
    s!"[Errno {number}] {meaning}: " ++ String.ofList (Quoted.encode path.spelling)
  match fault with
  | .missing path => shown 2 "No such file or directory" path
  | .existing path => shown 17 "File exists" path
  | .notDirectory path => shown 20 "Not a directory" path
  | .directory path => shown 21 "Is a directory" path
  | .tooLong path => shown 36 "File name too long" path
  | .nullCharacter => "embedded null byte"

/-- Why a file has no text. -/
inductive ReadFault where
  | file (fault : FileFault)
  | decoding (fault : Utf8.Fault)
deriving DecidableEq, Repr

/-- The largest number of bytes in a name. -/
def nameLimit : Nat := 255

/-- The largest number of bytes in a path. -/
def pathLimit : Nat := 4095

/-- Entries by their paths, which are free of detours. -/
structure Tree where
  entries : List (Path × Entry) := []
deriving DecidableEq, Repr

namespace Tree

/-- What stands at a path that is free of detours. Where a command runs, and all
that lies above it, are directories. -/
def entry? (tree : Tree) (place : Path) : Option Entry :=
  if place.parts.all (· == ['.', '.']) then some .directory
  else (tree.entries.find? fun entry => entry.1 == place).map (·.2)

/-- Follows the names of a path, where the names of the place that has been
reached are in reverse order. Every place on the way has to be a directory. -/
def follow (tree : Tree) (path : Path) : (reached remaining : List Text) → Except FileFault Entry
  | reached, [] =>
    match tree.entry? ⟨path.anchor, reached.reverse⟩ with
    | some entry => .ok entry
    | none => .error (.missing path)
  | reached, part :: remaining =>
    match tree.entry? ⟨path.anchor, reached.reverse⟩ with
    | none => .error (.missing path)
    | some .directory =>
      if nameLimit < Utf8.byteCount part then .error (.tooLong path)
      else follow tree path (Path.step path.anchor reached part) remaining
    | some _ => .error (.notDirectory path)

/-- What stands at a path, or why nothing can be found there. -/
def look (tree : Tree) (path : Path) : Except FileFault Entry :=
  if path.spelling.contains '\x00' then .error .nullCharacter
  else if pathLimit < Utf8.byteCount path.spelling then .error (.tooLong path)
  else tree.follow path [] path.parts

/-- What stands at a path, if anything does. -/
def get? (tree : Tree) (path : Path) : Option Entry :=
  (tree.look path).toOption

/-- Whether something stands at a path. A path that leads nowhere holds nothing;
only one that is too long leaves the question open. -/
def holds (tree : Tree) (path : Path) : Except FileFault Bool :=
  match tree.look path with
  | .ok _ => .ok true
  | .error (.tooLong place) => .error (.tooLong place)
  | .error _ => .ok false

/-- A directory stands at the path. -/
def isDirectory (tree : Tree) (path : Path) : Bool :=
  tree.get? path == some .directory

/-- Puts an entry at a path, whatever stood there. -/
def put (tree : Tree) (path : Path) (entry : Entry) : Tree :=
  let place := path.collapse
  if tree.entries.any (·.1 == place) then
    ⟨tree.entries.map fun other => if other.1 = place then (place, entry) else other⟩
  else ⟨tree.entries ++ [(place, entry)]⟩

/-- Takes away the entry of a path. -/
def erase (tree : Tree) (path : Path) : Tree :=
  ⟨tree.entries.filter fun other => other.1 ≠ path.collapse⟩

/-- Takes away a file. -/
def removeFile (tree : Tree) (path : Path) : Except FileFault Tree :=
  match tree.look path with
  | .ok .directory => .error (.directory path)
  | .ok _ => .ok (tree.erase path)
  | .error fault => .error fault

/-- The directories above a path and the path itself, outermost first. -/
def lineage (path : Path) : List Path :=
  (List.range path.parts.length).map fun count => { path with parts := path.parts.take (count + 1) }

/-- Puts an entry at a path where nothing stands, in a directory that exists. -/
def place (tree : Tree) (path : Path) (entry : Entry) : Except FileFault Tree :=
  if tree.isDirectory path.directory then .ok (tree.put path entry) else .error (.missing path)

/-- Makes one directory, where nothing may stand. -/
def makeDirectory (tree : Tree) (path : Path) : Except FileFault Tree :=
  match tree.look path with
  | .ok _ => .error (.existing path)
  | .error (.missing _) => tree.place path .directory
  | .error fault => .error fault

/-- Makes one directory, unless it is there already. -/
def ensureDirectory (tree : Tree) (path : Path) : Tree × Except FileFault Unit :=
  match tree.makeDirectory path with
  | .ok made => (made, .ok ())
  | .error fault => (tree, if tree.isDirectory path then .ok () else .error fault)

/-- Makes the directory of some names below an anchor, given in reverse order, and
the directories above it, where they are missing. -/
def makeBelow (tree : Tree) (anchor : Anchor) :
    (reached : List Text) → Tree × Except FileFault Unit
  | [] => (tree, .ok ())
  | part :: above =>
    let path : Path := ⟨anchor, (part :: above).reverse⟩
    match tree.ensureDirectory path with
    | (_, .error (.missing _)) =>
      match tree.makeBelow anchor above with
      | (made, .ok ()) => made.ensureDirectory path
      | (made, .error fault) => (made, .error fault)
    | done => done

/-- Makes a directory and the directories above it, where they are missing. Those
that were made stay, even if one below them cannot be made. -/
def makeDirectories (tree : Tree) (path : Path) : Tree × Except FileFault Unit :=
  tree.makeBelow path.anchor path.parts.reverse

/-- Makes a directory where nothing may stand, and the directories above it, where
they are missing. -/
def createDirectory (tree : Tree) (path : Path) : Tree × Except FileFault Unit :=
  match tree.makeDirectory path with
  | .ok made => (made, .ok ())
  | .error (.missing _) =>
    match tree.makeDirectories path.directory with
    | (above, .ok ()) =>
      match above.makeDirectory path with
      | .ok made => (made, .ok ())
      | .error fault => (above, .error fault)
    | stopped => stopped
  | .error fault => (tree, .error fault)

/-- Writes bytes to a path in a directory that exists. -/
def write (tree : Tree) (path : Path) (bytes : List UInt8) : Except FileFault Tree :=
  match tree.look path with
  | .ok .directory => .error (.directory path)
  | .ok _ => .ok (tree.put path (.file bytes))
  | .error (.missing _) => tree.place path (.file bytes)
  | .error fault => .error fault

/-- Puts a file of the given bytes at a path, or without bytes a new directory, and
makes the directories above it, where they are missing. -/
def supply (tree : Tree) (path : Path) : Option (List UInt8) → Tree × Except FileFault Unit
  | none => tree.createDirectory path
  | some bytes =>
    match tree.makeDirectories path.directory with
    | (made, .ok ()) =>
      match made.write path bytes with
      | .ok written => (written, .ok ())
      | .error fault => (made, .error fault)
    | stopped => stopped

/-- The bytes of a file. -/
def readBytes (tree : Tree) (path : Path) : Except FileFault (List UInt8) :=
  match tree.look path with
  | .error fault => .error fault
  | .ok .directory => .error (.directory path)
  | .ok (.file bytes) => .ok bytes
  | .ok (.database database) => .ok database.toBytes

/-- The text of a file, with line feeds for all its line breaks. -/
def readText (tree : Tree) (path : Path) : Except ReadFault Text :=
  match tree.readBytes path with
  | .error fault => .error (.file fault)
  | .ok bytes =>
    match Utf8.decode bytes with
    | .error fault => .error (.decoding fault)
    | .ok text => .ok (unifyLineBreaks text)

/-- Writes a text to a path in a directory that exists. -/
def writeText (tree : Tree) (path : Path) (text : Text) : Except FileFault Tree :=
  tree.write path (Utf8.encode text)

/-- The names in a directory, sorted. -/
def names (tree : Tree) (directory : Path) : List Text :=
  let place := directory.collapse
  ((tree.entries.filter fun entry => entry.1.parts ≠ [] ∧ entry.1.directory = place).map
    fun entry => entry.1.name).mergeSort Text.ble

end Tree

end SqlRenewal
