import SqlRenewal.Findings
import SqlRenewal.Work.Failure

/-!
# Folders of definitions

A folder keeps each routine in a file of its own, named by schema and name with
the suffix `.sql`. A file without a schema in its name belongs to the default
schema; it is used when the file with the schema does not exist.
-/
namespace SqlRenewal.Folder

/-- The suffix of a definition file. -/
def suffix : Text := ['.', 's', 'q', 'l']

/-- The routine that a file of that path defines. -/
def identityFor (path : Path) : Except IdentityFault Identity :=
  Identity.parse defaultSchema path.stem

/-- The path of a definition file in a folder. -/
def fileNamed (root : Path) (name : Text) : Path :=
  root.below (Path.ofText (name ++ suffix))

/-- The file of a routine. -/
def pathFor (tree : Tree) (root : Path) (identity : Identity) : Except FileFault Path := do
  let qualified := fileNamed root identity.qualified
  let plain := fileNamed root identity.name
  if (← tree.holds qualified) || identity.schema ≠ defaultSchema then return qualified
  else if ← tree.holds plain then return plain
  else return qualified

/-- The file of a routine, and whether it exists. -/
def locate (tree : Tree) (root : Path) (identity : Identity) : Except Failure (Path × Bool) := do
  let path ← (pathFor tree root identity).mapError Failure.file
  return (path, ← (tree.holds path).mapError Failure.file)

/-- The text of a routine. -/
def read (tree : Tree) (root : Path) (identity : Identity) : Except Failure Text := do
  let (path, present) ← locate tree root identity
  if present then (tree.readText path).mapError Failure.ofRead
  else throw (.noRoutine identity)

/-- Writes the text of a routine, whose file has to exist. -/
def write (tree : Tree) (root : Path) (identity : Identity) (text : Text) :
    Except Failure Tree := do
  let (path, present) ← locate tree root identity
  if present then
    (tree.writeText path text).mapError fun fault => .commit identity (.file fault)
  else throw (.commit identity (.noFile path))

/-- The definition files of a folder. -/
def files (tree : Tree) (root : Path) : List Path :=
  ((tree.names root).filter fun name => suffix.isSuffixOf name).map
    (fun name => { root with parts := root.parts ++ [name] })
  |>.filter fun path => (tree.get? path).any Entry.isFile

/-- The routine in a definition file. -/
def load (tree : Tree) (path : Path) : Except Failure Routine := do
  let text ← (tree.readText path).mapError Failure.ofRead
  let identity ← (identityFor path).mapError Failure.badName
  return ⟨identity, kindOf text, text⟩

/-- All routines of a folder, by their names. One file that cannot be read spoils
the whole list. -/
def routines (tree : Tree) (root : Path) : Except Failure (List Routine) := do
  return sortRoutines (← (files tree root).mapM (load tree))

end SqlRenewal.Folder
