import SqlRenewal.CommandLine.Clock
import SqlRenewal.CommandLine.Reach
import Std.Time.DateTime.Timestamp

/-!
# The command

Brings together the files that a command line leads to, runs it, and writes what
changed.
-/
namespace SqlRenewal

/-- The spelling of a path for the system. -/
def Path.system (path : Path) : String :=
  String.ofList path.spelling

/-- Adds what stands at a path, if anything does. -/
def loadEntry (tree : Tree) (path : Path) : IO Tree := do
  let place := (← IO.currentDir) / path.system
  if ← place.isDir then return tree.put path .directory
  else if ← place.pathExists then
    return tree.put path (Entry.ofBytes (← IO.FS.readBinFile place).toList)
  else return tree

/-- Adds the files that stand directly in a directory. -/
def loadDirectory (tree : Tree) (path : Path) : IO Tree := do
  let place := (← IO.currentDir) / path.system
  if ← place.isDir then
    let names := (← place.readDir).toList.map fun entry => entry.fileName
    names.foldlM (fun tree name => loadEntry tree (path.below (Path.ofString name))) tree
  else return tree

/-- Adds a place, the directories above it, and what it holds. -/
def loadPlace (tree : Tree) (path : Path) : IO Tree := do
  loadDirectory (← (withDirectories path).foldlM loadEntry tree) path

/-- Writes one entry. -/
def saveEntry (path : Path) : Entry → IO Unit
  | .directory => IO.FS.createDirAll path.system
  | .file bytes => IO.FS.writeBinFile path.system ⟨bytes.toArray⟩
  | .database database => IO.FS.writeBinFile path.system ⟨database.toBytes.toArray⟩

/-- The settings of the environment. -/
def readEnvironment : IO (List (Text × Text)) := do
  let pairs ← settingNames.mapM fun name => do
    return (← IO.getEnv name).map fun value => (name.toList, value.toList)
  return pairs.filterMap id

/-- The present moment. -/
def currentMoment : IO Moment := do
  let nanoseconds := (← Std.Time.Timestamp.now).toNanosecondsSinceUnixEpoch.val
  return .ofMicroseconds (nanoseconds / 1000).toNat

end SqlRenewal

open SqlRenewal

/-- Runs the command line. -/
def main (arguments : List String) : IO UInt32 := do
  let texts := arguments.map String.toList
  let environment ← readEnvironment
  let moment ← currentMoment
  let first ← (settingsPaths texts).foldlM loadPlace {}
  let files ← (reachedPaths texts environment first).foldlM loadPlace first
  let result := runCommandLine texts environment moment.stamp files
  (files.changesFrom result.files).forM fun (path, entry) => saveEntry path entry
  (files.gonePlaces result.files).forM fun path => IO.FS.removeFile path.system
  (result.complaints moment.logStamp).forM (fun line => IO.eprintln line)
  IO.print result.output
  return result.code
