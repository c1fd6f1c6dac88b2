import SqlRenewal.Proofs.Files.Directory

/-!
# What stands at a place

A file stands at its place whatever path leads there. Writing and removing happen at one
place only. Directories are made where nothing stood, so they take no file away, and no
path that led somewhere is led astray.
-/
namespace SqlRenewal

/-! ### Names without slashes -/

/-- The pieces between separators contain none: a separator ends a piece, and any other character
goes into the piece before the next one. The induction goes along the text. -/
theorem not_mem_of_mem_splitAt {separator : Char} {text part : Text}
    (inside : part ∈ Text.splitAt separator text) : separator ∉ part := by
  induction text generalizing part with
  | nil =>
    rw [Text.splitAt, List.mem_singleton] at inside
    simp [inside]
  | cons c rest inductionHypothesis =>
    rw [Text.splitAt] at inside
    split at inside
    · rcases List.mem_cons.mp inside with rfl | later
      · exact List.not_mem_nil
      · exact inductionHypothesis later
    · rename_i other
      split at inside
      · rw [List.mem_singleton.mp inside, List.mem_singleton]
        exact Ne.symm other
      · rename_i first parts split
        rw [split] at inductionHypothesis
        rcases List.mem_cons.mp inside with rfl | later
        · rw [List.mem_cons, not_or]
          exact ⟨Ne.symm other, inductionHypothesis List.mem_cons_self⟩
        · exact inductionHypothesis (List.mem_cons_of_mem _ later)

namespace Path

/-- No name on the path has a slash in it. -/
def Unsplit (path : Path) : Prop :=
  ∀ part ∈ path.parts, '/' ∉ part

/-- A path that is made of a text has no slash in its parts, because the text is cut at
slashes. -/
theorem unsplit_ofText (text : Text) : (ofText text).Unsplit :=
  fun _ inside => not_mem_of_mem_splitAt (List.mem_filter.mp inside).1

/-- The parts of the directory above a path are parts of the path. -/
theorem Unsplit.directory {path : Path} (unsplit : path.Unsplit) : path.directory.Unsplit :=
  fun part inside => unsplit part (List.dropLast_subset _ inside)

/-- A step adds no other name: it takes one away, or puts its own name behind those that are
there. -/
theorem mem_step {anchor : Anchor} {back : List Text} {part name : Text}
    (inside : name ∈ step anchor back part) : name = part ∨ name ∈ back := by
  unfold step at inside
  split at inside
  · exact List.mem_cons.mp inside
  · split at inside
    · split at inside
      · exact .inl (List.mem_singleton.mp inside)
      · cases inside
    · split at inside
      · exact List.mem_cons.mp inside
      · exact .inr (List.mem_cons_of_mem _ inside)

/-- To resolve the dots in a path only drops parts, so no part gets a slash. The induction is over
the parts that are still to come, for any parts behind. -/
theorem Unsplit.collapse {path : Path} (unsplit : path.Unsplit) : path.collapse.Unsplit := by
  have steps : ∀ (parts back : List Text), (∀ part ∈ parts, '/' ∉ part) → (∀ part ∈ back, '/' ∉ part) →
      ∀ part ∈ parts.foldl (step path.anchor) back, '/' ∉ part := by
    intro parts
    induction parts with
    | nil => exact fun back _ reached => reached
    | cons first rest inductionHypothesis =>
      intro back all reached
      rw [List.forall_mem_cons] at all
      refine inductionHypothesis _ all.2 fun part inside => ?_
      rcases mem_step inside with rfl | old
      · exact all.1
      · exact reached part old
  intro part inside
  exact steps path.parts [] unsplit nofun part (List.mem_reverse.mp inside)

end Path

namespace Tree

variable {tree after : Tree} {path place : Path} {new entry : Entry}

/-- The file at a place, by whatever path it is reached. -/
def fileAt (tree : Tree) (place : Path) : Option Entry :=
  ( tree.entry? place).filter Entry.isFile

/-- A file that is found at a path is the file at its place. -/
theorem fileAt_of_look (stands : tree.look path = .ok entry) (file : entry.isFile = true) :
    tree.fileAt path.collapse = some entry := by
  rw [fileAt, look_eq_ok stands, Option.filter_some_pos file]

/-! ### Writing -/

/-- Nothing changes anywhere else: the entries at other places are found among the same ones,
whether the place had an entry or gets its first one. -/
theorem entry?_put_of_ne (apart : place ≠ path.collapse) :
    Tree.entry? (tree.put path new) place = tree.entry? place := by
  rw [ entry?, entry?, put]
  split
  · rfl
  · split
    · have names : ((fun entry : Path × Entry => entry.1 == place) ∘ fun other : Path × Entry =>
          if other.1 = path.collapse then (path.collapse, new) else other) =
          fun entry => entry.1 == place := by
        funext other
        by_cases here : other.1 = path.collapse
        · simp [here]
        · simp [here]
      rw [List.find?_map, names, Option.map_map]
      cases found : tree.entries.find? fun entry => entry.1 == place with
      | none => rfl
      | some other =>
        have named : other.1 = place := by simpa using List.find?_some found
        simp [named, apart]
    · have elsewhere : (path.collapse == place) = false := by simpa using Ne.symm apart
      simp [List.find?_append, elsewhere]

/-- To put something at one place leaves the file at any other place. -/
theorem fileAt_put_of_ne (apart : place ≠ path.collapse) :
    (tree.put path new).fileAt place = tree.fileAt place := by
  rw [fileAt, fileAt, entry?_put_of_ne apart]

/-- Where no directory stands, a file can be put. It is the new entry of a free place, or replaces
the file that stood there. -/
theorem fileAt_put_self (takes : tree.entry? path.collapse ≠ some .directory)
    (file : new.isFile = true) : (tree.put path new).fileAt path.collapse = some new := by
  cases stands : tree.entry? path.collapse with
  | none => rw [fileAt, entry?_put_new stands, if_pos rfl, Option.filter_some_pos file]
  | some old =>
    have stood : old.isFile = true := by
      cases old with
      | directory => exact absurd stands takes
      | file bytes => rfl
      | database database => rfl
    rw [fileAt, entry?_put stands stood, stands, Option.map_some, replaced, if_pos rfl,
      Option.filter_some_pos file]

/-- At the place itself nothing else can be found: the entry that was put hides the one that was
there. -/
theorem eq_of_fileAt_put (stands : (tree.put path new).fileAt path.collapse = some entry) :
    entry = new := by
  have only : ∀ other ∈ (tree.put path new).entries, other.1 = path.collapse → other.2 = new := by
    intro other member here
    rw [put] at member
    split at member
    · obtain ⟨old, _, rfl⟩ := List.mem_map.mp member
      split
      · rfl
      · rename_i apart
        rw [if_neg apart] at here
        exact absurd here apart
    · rename_i absent
      rcases List.mem_append.mp member with old | last
      · exact absurd (List.any_eq_true.mpr ⟨other, old, by simpa using here⟩) absent
      · rw [List.mem_singleton.mp last]
  rw [fileAt, entry?] at stands
  split at stands
  · cases stands
  · obtain ⟨found, _⟩ := Option.filter_eq_some_iff.mp stands
    obtain ⟨kept, listed, rfl⟩ := Option.map_eq_some_iff.mp found
    exact only kept (List.mem_of_find?_eq_some listed) (by simpa using List.find?_some listed)

/-- A place with a file is not a directory. -/
theorem takes_of_fileAt (stands : tree.fileAt place = some entry) :
    tree.entry? place ≠ some .directory := by
  intro directory
  rw [fileAt, directory] at stands
  cases stands

/-- What is known for a directory is found as one. -/
theorem look_of_isDirectory (folder : tree.isDirectory path = true) :
    tree.look path = .ok .directory := by
  rw [isDirectory, get?, beq_iff_eq] at folder
  cases stands : tree.look path with
  | error fault => simp [stands, Except.toOption] at folder
  | ok entry => simpa [stands, Except.toOption] using folder

/-- Only a path with a name can be missing. A path without one is the root or the working
directory, and both are always there. -/
theorem eq_child_of_missing {missed : Path} (missing : tree.look path = .error (.missing missed)) :
    path = path.directory.child path.name := by
  refine Path.eq_child fun bare => ?_
  rw [look] at missing
  split at missing
  · cases missing
  · split at missing
    · cases missing
    · simp [bare, follow, entry?] at missing

/-- A path that is only missing leads to a free place. -/
theorem free_of_missing_path {missed : Path}
    (missing : tree.look path = .error (.missing missed))
    (folder : tree.isDirectory path.directory = true) : tree.entry? path.collapse = none := by
  have named := eq_child_of_missing missing
  rw [named] at missing ⊢
  exact (free_of_missing (look_of_isDirectory folder) missing).2

/-- A file that was written has been put at its place, where no directory stood. Every other case
of the writing is a failure. -/
theorem write_eq_ok {bytes : List UInt8} (written : tree.write path bytes = .ok after) :
    after = tree.put path (.file bytes) ∧ tree.entry? path.collapse ≠ some .directory := by
  rw [write] at written
  split at written
  · cases written
  · rename_i entry other stands
    cases written
    refine ⟨rfl, ?_⟩
    rw [look_eq_ok stands]
    intro directory
    exact other (Option.some.inj directory)
  · rename_i missed missing
    rw [Tree.place] at written
    split at written
    · rename_i folder
      cases written
      refine ⟨rfl, ?_⟩
      rw [free_of_missing_path missing folder]
      exact Option.some_ne_none _ ∘ Eq.symm
    · cases written
  · cases written

/-! ### Directories -/

/-- A new directory stands where nothing stood, so no file is lost to it, and it is no file
itself. -/
theorem fileAt_makeDirectory (made : tree.makeDirectory path = .ok after) (place : Path) :
    after.fileAt place = tree.fileAt place := by
  rw [makeDirectory] at made
  split at made
  · cases made
  · rename_i missed missing
    rw [Tree.place] at made
    split at made
    · rename_i folder
      cases made
      have free := free_of_missing_path missing folder
      rw [fileAt, fileAt, entry?_put_new free]
      split
      · rename_i here
        rw [here, free]
        rfl
      · rfl
    · cases made
  · cases made

/-- To make sure of a directory leaves every file, whether the directory was there, is made, or
cannot be made. -/
theorem fileAt_ensureDirectory (tree : Tree) (path place : Path) :
    (tree.ensureDirectory path).1.fileAt place = tree.fileAt place := by
  rw [ensureDirectory]
  split
  · rename_i made success
    exact fileAt_makeDirectory success place
  · rfl

/-- To make the directories of a path one below the other leaves every file, by induction over the
parts. -/
theorem fileAt_makeBelow (tree : Tree) (anchor : Anchor) (reached : List Text) (place : Path) :
    (tree.makeBelow anchor reached).1.fileAt place = tree.fileAt place := by
  induction reached with
  | nil => rfl
  | cons part above inductionHypothesis =>
    rw [makeBelow]
    split
    · split
      · rename_i made success
        rw [success] at inductionHypothesis
        rw [fileAt_ensureDirectory]
        exact inductionHypothesis
      · rename_i made fault failed
        rw [failed] at inductionHypothesis
        exact inductionHypothesis
    · exact fileAt_ensureDirectory tree _ place

/-- Directories that are made take no file away and bring none. -/
theorem fileAt_makeDirectories (tree : Tree) (path place : Path) :
    (tree.makeDirectories path).1.fileAt place = tree.fileAt place :=
  fileAt_makeBelow tree _ _ place

/-! ### Removing -/

/-- To remove one entry leaves those at all other places: what is sought elsewhere passes over it
anyway. -/
theorem entry?_erase_of_ne (apart : place ≠ path.collapse) :
    Tree.entry? (tree.erase path) place = tree.entry? place := by
  have names : (fun entry : Path × Entry =>
      decide (decide (entry.1 ≠ path.collapse) = true ∧ (entry.1 == place) = true)) =
        fun entry => entry.1 == place := by
    funext entry
    by_cases here : entry.1 = place
    · simp [here, apart]
    · simp [here]
  rw [ entry?, entry?, erase, List.find?_filter, names]

/-- Where an entry was removed no file is left, because the filter keeps no entry of that
place. -/
theorem fileAt_erase_self (tree : Tree) (path : Path) :
    (tree.erase path).fileAt path.collapse = none := by
  have gone : ((tree.erase path).entries.find? fun entry => entry.1 == path.collapse) = none := by
    rw [List.find?_eq_none]
    intro entry member
    simpa using (List.mem_filter.mp member).2
  rw [fileAt, entry?, gone]
  split <;> rfl

/-- The file at a place is gone exactly if that place was erased. Every other place has the entry
that it had. -/
theorem fileAt_erase (tree : Tree) (path place : Path) :
    (tree.erase path).fileAt place = if place = path.collapse then none else tree.fileAt place := by
  split
  · rename_i here
    rw [here, fileAt_erase_self]
  · rename_i apart
    rw [fileAt, entry?_erase_of_ne apart, fileAt]

/-! ### Proper trees -/

/-- Whatever is put somewhere has a place of its own: it takes the place of an entry, or gets one
where none was. -/
theorem Proper.put (proper : tree.Proper) (unsplit : path.Unsplit) : (tree.put path new).Proper := by
  rw [Tree.put]
  split
  · have places : (tree.entries.map fun other =>
        if other.1 = path.collapse then (path.collapse, new) else other).map Prod.fst =
          tree.entries.map Prod.fst := by
      rw [List.map_map]
      refine List.map_congr_left fun other _ => ?_
      by_cases here : other.1 = path.collapse
      · simp [here]
      · simp [here]
    refine ⟨places ▸ proper.distinct, ?_⟩
    intro entry listed
    obtain ⟨old, member, rfl⟩ := List.mem_map.mp listed
    split
    · exact unsplit.collapse
    · exact proper.unsplit old member
  · rename_i absent
    constructor
    · rw [List.map_append, List.nodup_append]
      refine ⟨proper.distinct, by simp, ?_⟩
      intro place listed other last same
      obtain ⟨entry, member, rfl⟩ := List.mem_map.mp listed
      refine absent (List.any_eq_true.mpr ⟨entry, member, ?_⟩)
      rw [beq_iff_eq, same]
      simpa using last
    · intro entry listed
      rcases List.mem_append.mp listed with old | last
      · exact proper.unsplit entry old
      · rw [List.mem_singleton.mp last]
        exact unsplit.collapse

/-- A tree from which an entry is taken stays proper: the other places are as distinct as
before. -/
theorem Proper.erase (proper : tree.Proper) (path : Path) : (tree.erase path).Proper :=
  ⟨proper.distinct.sublist (List.filter_sublist.map Prod.fst),
    fun entry listed => proper.unsplit entry (List.mem_filter.mp listed).1⟩

/-- To make sure of a directory keeps a tree proper: one entry is added at most, where none
stood. -/
theorem Proper.ensureDirectory (proper : tree.Proper) (unsplit : path.Unsplit) :
    (tree.ensureDirectory path).1.Proper := by
  rw [Tree.ensureDirectory]
  split
  · rename_i made success
    rw [makeDirectory] at success
    split at success
    · cases success
    · rw [Tree.place] at success
      split at success
      · cases success
        exact proper.put unsplit
      · cases success
    · cases success
  · exact proper

/-- Directories that are made one below the other keep a tree proper, by induction over the
parts. -/
theorem Proper.makeBelow (proper : tree.Proper) (anchor : Anchor) {reached : List Text}
    (unsplit : ∀ part ∈ reached, '/' ∉ part) : (tree.makeBelow anchor reached).1.Proper := by
  induction reached with
  | nil => exact proper
  | cons part above inductionHypothesis =>
    have whole : Path.Unsplit ⟨anchor, (part :: above).reverse⟩ :=
      fun name inside => unsplit name (List.mem_reverse.mp inside)
    have before := inductionHypothesis (List.forall_mem_cons.mp unsplit).2
    rw [Tree.makeBelow]
    split
    · split
      · rename_i made success
        rw [success] at before
        exact before.ensureDirectory whole
      · rename_i made fault failed
        rw [failed] at before
        exact before
    · exact proper.ensureDirectory whole

/-- The directories of a path are made one below the other, so the tree stays proper. -/
theorem Proper.makeDirectories (proper : tree.Proper) (unsplit : path.Unsplit) :
    (tree.makeDirectories path).1.Proper :=
  proper.makeBelow _ fun part inside => unsplit part (List.mem_reverse.mp inside)

/-! ### Ways -/

/-- All directories of one tree are directories of the other. -/
def KeepsDirectories (tree after : Tree) : Prop :=
  ∀ place, tree.entry? place = some .directory → after.entry? place = some .directory

/-- Directories that are kept twice are kept on the whole. -/
theorem KeepsDirectories.trans {last : Tree} (first : tree.KeepsDirectories after)
    (second : after.KeepsDirectories last) : tree.KeepsDirectories last :=
  fun place directory => second place (first place directory)

/-- To put something where no directory stands keeps all directories. -/
theorem keepsDirectories_put (takes : tree.entry? path.collapse ≠ some .directory) :
    tree.KeepsDirectories (tree.put path new) := by
  intro place directory
  rw [entry?_put_of_ne, directory]
  rintro rfl
  exact takes directory

/-- To remove something that is no directory keeps all directories. -/
theorem keepsDirectories_erase (takes : tree.entry? path.collapse ≠ some .directory) :
    tree.KeepsDirectories (tree.erase path) := by
  intro place directory
  rw [entry?_erase_of_ne, directory]
  rintro rfl
  exact takes directory

/-- Only directories are passed on the way to a place, so a way stays open as long as directories
are kept. The induction goes along the way. -/
theorem follow_of_keepsDirectories (keeps : tree.KeepsDirectories after) {other : Path}
    {reached remaining : List Text} (found : tree.follow other reached remaining = .ok entry)
    (stands : after.entry? ⟨other.anchor,
      (remaining.foldl (Path.step other.anchor) reached).reverse⟩ = some new) :
    after.follow other reached remaining = .ok new := by
  induction remaining generalizing reached with
  | nil =>
    rw [List.foldl_nil] at stands
    rw [follow, stands]
  | cons part remaining inductionHypothesis =>
    rw [follow] at found ⊢
    split at found
    · cases found
    · rename_i here
      rw [keeps _ here]
      simp only
      split at found
      · cases found
      · rename_i short
        rw [if_neg short]
        exact inductionHypothesis found stands
    · cases found

/-- A path that led somewhere leads to what stands there now. It is tested as before, and every
directory on its way is still one. -/
theorem look_of_keepsDirectories (keeps : tree.KeepsDirectories after) {other : Path}
    (found : tree.look other = .ok entry) (stands : after.entry? other.collapse = some new) :
    after.look other = .ok new := by
  rw [look] at found ⊢
  split at found
  · cases found
  · rename_i clean
    split at found
    · cases found
    · rename_i short
      rw [if_neg clean, if_neg short]
      exact follow_of_keepsDirectories keeps found stands

end Tree

end SqlRenewal
