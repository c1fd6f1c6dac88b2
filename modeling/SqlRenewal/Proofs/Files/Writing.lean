import SqlRenewal.Proofs.Files.Standing

/-!
# Writing a file

Before a file is written, the directories above it are made where they are missing.
Whatever could be found before is found as it was: a directory is only made where
nothing stands. Afterwards the bytes of the file are those that were written.
-/
namespace SqlRenewal.Tree

variable {tree after : Tree} {path other : Path} {entry : Entry}

/-! ### Directories above a file -/

/-- What was found is still found after a directory was made, because it is made where nothing
stood. -/
theorem look_makeDirectory (made : tree.makeDirectory path = .ok after)
    (found : tree.look other = .ok entry) : after.look other = .ok entry := by
  rw [makeDirectory] at made
  split at made
  · cases made
  · rename_i missed missing
    rw [Tree.place] at made
    split at made
    · rename_i folder
      cases made
      exact look_put_new (free_of_missing_path missing folder) found
    · cases made
  · cases made

/-- What was found is still found after a directory was made sure of. Either a directory was
added, and this is in nobody's way, or the tree is the old one. -/
theorem look_ensureDirectory (path : Path) (found : tree.look other = .ok entry) :
    (tree.ensureDirectory path).1.look other = .ok entry := by
  rw [ensureDirectory]
  split
  · rename_i made success
    exact look_makeDirectory success found
  · exact found

/-- What was found is still found after directories were made one below the other, by induction
over the parts. -/
theorem look_makeBelow (anchor : Anchor) (reached : List Text)
    (found : tree.look other = .ok entry) :
    (tree.makeBelow anchor reached).1.look other = .ok entry := by
  induction reached with
  | nil => exact found
  | cons part above inductionHypothesis =>
    rw [makeBelow]
    split
    · split
      · rename_i made success
        rw [success] at inductionHypothesis
        exact look_ensureDirectory _ inductionHypothesis
      · rename_i made fault failed
        rw [failed] at inductionHypothesis
        exact inductionHypothesis
    · exact look_ensureDirectory _ found

/-- Making directories leads no path astray. -/
theorem look_makeDirectories (path : Path) (found : tree.look other = .ok entry) :
    (tree.makeDirectories path).1.look other = .ok entry :=
  look_makeBelow _ _ found

/-! ### The file -/

/-- A file can be written at the path: a file stands there, or nothing does, in a
directory that exists. -/
def takes (tree : Tree) (path : Path) : Bool :=
  match tree.look path with
  | .ok entry => entry.isFile
  | .error (.missing _) => tree.isDirectory path.directory
  | .error _ => false

/-- Where a file can be written, it is, and takes its place. The test and the writing look at the
same entry, and for a missing file at the directory above it. -/
theorem write_of_takes (takes : tree.takes path = true) (bytes : List UInt8) :
    tree.write path bytes = .ok (tree.put path (.file bytes)) := by
  rw [Tree.takes] at takes
  rw [write]
  split at takes
  · rename_i entry found
    cases entry with
    | directory => cases takes
    | file old => rw [found]
    | database database => rw [found]
  · rename_i missed missing
    rw [missing]
    simp only [Tree.place, takes, if_true]
  · cases takes

/-- A file that was written could be written: the test asks the same questions as the writing, in
the same order, and it had the same answers. -/
theorem takes_of_write {bytes : List UInt8} (written : tree.write path bytes = .ok after) :
    tree.takes path = true := by
  rw [write] at written
  rw [takes]
  split at written
  · cases written
  · rename_i entry other found
    rw [found]
    cases entry with
    | directory => exact absurd rfl other
    | file old => rfl
    | database database => rfl
  · rename_i missed missing
    rw [Tree.place] at written
    rw [missing]
    split at written
    · rename_i folder
      exact folder
    · cases written
  · cases written

/-- The file is found at its path, whether it is new or one was written over. -/
theorem look_write {bytes : List UInt8} (written : tree.write path bytes = .ok after) :
    after.look path = .ok (.file bytes) := by
  have takes := takes_of_write written
  rw [write_of_takes takes] at written
  cases written
  rw [Tree.takes] at takes
  split at takes
  · rename_i entry found
    exact look_put_self found takes rfl
  · rename_i missed missing
    have named := eq_child_of_missing missing
    rw [named] at missing ⊢
    exact look_put_missing (look_of_isDirectory takes) missing _
  · cases takes

/-- What was written is read back, byte for byte. -/
theorem readBytes_write {bytes : List UInt8} (written : tree.write path bytes = .ok after) :
    after.readBytes path = .ok bytes := by
  rw [readBytes, look_write written]

end SqlRenewal.Tree
