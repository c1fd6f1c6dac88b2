import SqlRenewal.Proofs.Store.Listing

/-!
# A file beside the others

A new definition file leaves the other ones as they are, and they are listed as before. It
can still come between a routine and its text: a name may lead to the new file that led
elsewhere, or the routine of the new file may be looked for in another file. If neither
is so, the new file stands apart. Then every other routine has the text that it had, and
this stays so whatever is written.
-/
namespace SqlRenewal.Folder

variable {tree joined : Tree} {root path : Path} {name : Text} {identity newcomer : Identity}
  {new : Entry}

/-- The trees differ in the file of a name at most, and this file is in the second one. -/
structure Beside (root : Path) (name : Text) (tree joined : Tree) : Prop where
  looks : ∀ other, suffix <:+ other → other ≠ name →
    joined.look (root.child other) = tree.look (root.child other)
  stands : ∃ entry, joined.look (root.child name) = .ok entry ∧ entry.isFile = true

/-- Two files of a folder with different names stand at different places, since a name with the
suffix is none of the dots that a path resolves. -/
theorem child_collapse_ne {other : Text} (ends : suffix <:+ name) (ends' : suffix <:+ other)
    (distinct : other ≠ name) : (root.child other).collapse ≠ (root.child name).collapse := by
  intro same
  rw [Path.collapse_child root (ne_points_of_suffix ends'),
    Path.collapse_child root (ne_points_of_suffix ends)] at same
  exact distinct (Path.child_inj same)

/-- A file is added where nothing stands. All other definition files have other places, so each of
them is found as before. -/
theorem Beside.ofNew (folder : tree.look root = .ok .directory) (ends : suffix <:+ name)
    {missed : Path} (free : tree.look (root.child name) = .error (.missing missed))
    (file : new.isFile = true) : Beside root name tree (tree.put (root.child name) new) := by
  have vacant := (Tree.free_of_missing folder free).2
  have folderNow : (tree.put (root.child name) new).look root = .ok .directory :=
    Tree.look_put_new vacant folder
  constructor
  · intro other ends' distinct
    rw [Tree.look_child folderNow, Tree.look_child folder, Tree.entry?_put_new vacant,
      if_neg (child_collapse_ne ends ends' distinct)]
  · exact ⟨new, Tree.look_put_missing folder free new, file⟩

/-- A file name without slashes is a name in the folder itself. -/
theorem fileNamed_eq_child (root : Path) {text : Text} (unsplit : '/' ∉ text) :
    fileNamed root text = root.child (text ++ suffix) :=
  fileNamed_eq root unsplit

namespace Beside

variable (beside : Beside root name tree joined)

include beside

/-- Whether a file stands in the folder has not changed, unless it is the new one. -/
theorem holds_eq {text : Text} (unsplit : '/' ∉ text)
    (elsewhere : fileNamed root text ≠ root.child name) :
    joined.holds (fileNamed root text) = tree.holds (fileNamed root text) := by
  rw [fileNamed_eq_child root unsplit] at elsewhere ⊢
  have distinct : text ++ suffix ≠ name := by
    rintro rfl
    exact elsewhere rfl
  rw [Tree.holds, Tree.holds, beside.looks _ (List.suffix_append _ _) distinct]

/-- The new file stands in the folder. -/
theorem holds_new : joined.holds (root.child name) = .ok true := by
  obtain ⟨entry, stands, _⟩ := beside.stands
  rw [Tree.holds, stands]

/-- A routine that is not looked for in the new file is looked for where it was: the two files of
its name are there, or not there, as before. -/
theorem pathFor_eq (unsplit : '/' ∉ identity.qualified)
    (unused : pathFor joined root identity ≠ .ok (root.child name)) :
    pathFor joined root identity = pathFor tree root identity := by
  have qualified : fileNamed root identity.qualified ≠ root.child name := by
    intro same
    refine unused ?_
    rw [pathFor, same, beside.holds_new]
    rfl
  have held := beside.holds_eq unsplit qualified
  rw [pathFor, pathFor, held]
  cases present : tree.holds (fileNamed root identity.qualified) with
  | error fault => rfl
  | ok present' =>
    simp only [bind, Except.bind]
    split
    · rfl
    · rename_i fallback
      have plain : fileNamed root identity.name ≠ root.child name := by
        intro same
        refine unused ?_
        rw [pathFor, held, present, same, beside.holds_new]
        simp only [bind, Except.bind, if_neg fallback, if_true]
        rfl
      rw [beside.holds_eq (not_mem_name unsplit) plain]

/-- A definition file other than the new one is the same in both trees: the two files of a name
are looked for in the folder itself, where only the new one differs. -/
theorem look_eq (unsplit : '/' ∉ identity.qualified)
    (found : pathFor joined root identity = .ok path) (elsewhere : path ≠ root.child name) :
    joined.look path = tree.look path := by
  have inFolder {text : Text} (whole : '/' ∉ text) (same : path = fileNamed root text) :
      joined.look path = tree.look path := by
    rw [fileNamed_eq_child root whole] at same
    subst same
    refine beside.looks _ (List.suffix_append _ _) ?_
    rintro rfl
    exact elsewhere rfl
  obtain same | ⟨_, same⟩ := pathFor_cases found
  · exact inFolder unsplit same
  · exact inFolder (not_mem_name unsplit) same

/-- A routine that is not looked for in the new file reads as before, because its file is chosen
and read in the same way in both trees. -/
theorem read_eq (unsplit : '/' ∉ identity.qualified)
    (unused : pathFor joined root identity ≠ .ok (root.child name)) :
    read joined root identity = read tree root identity := by
  have same := beside.pathFor_eq unsplit unused
  have located : locate joined root identity = locate tree root identity := by
    cases found : pathFor joined root identity with
    | error fault =>
      rw [locate, locate, ← same, found]
      rfl
    | ok path =>
      have look := beside.look_eq unsplit found fun here => unused (here ▸ found)
      rw [locate, locate, ← same, found]
      simp only [Except.mapError, bind, Except.bind, Tree.holds, look]
  rw [read, read, located]
  cases place : locate tree root identity with
  | error failure => rfl
  | ok place' =>
    obtain ⟨path, present⟩ := place'
    have found := (locate_eq_ok_iff.mp (located.trans place)).1
    have look := beside.look_eq unsplit found fun here => unused (here ▸ found)
    simp only [bind, Except.bind, Tree.readText, Tree.readBytes, look]

end Beside

/-! ### Writing -/

section Written

variable {place : Path} {old : Entry} (stands : joined.look place = .ok old)
  (file : old.isFile = true) (written : new.isFile = true)

include stands file written

/-- Where a routine is looked for depends on which files stand in the folder, and not on what they
contain. -/
theorem pathFor_put : pathFor (joined.put place new) root identity = pathFor joined root identity := by
  simp only [pathFor, Tree.holds_put stands file written]

/-- What is a file stays one, and no new file comes into being: only what stands at the place is
replaced, and a file stood there. -/
theorem look_put_file {entry : Entry} (found : (joined.put place new).look path = .ok entry)
    (isFile : entry.isFile = true) :
    ∃ before, joined.look path = .ok before ∧ before.isFile = true := by
  rw [Tree.look_put stands file written] at found
  cases look : joined.look path with
  | error fault =>
    rw [look] at found
    cases found
  | ok before =>
    refine ⟨before, rfl, ?_⟩
    rw [look, Except.map, Except.ok.injEq, Tree.replaced] at found
    split at found
    · rename_i here
      have same := Tree.look_eq_ok look
      rw [here, Tree.look_eq_ok stands] at same
      rw [← Option.some.inj same, file]
    · rw [found, isFile]

/-- The new file alone is written over. Other definition files have other places, and the new one
is a file as before. -/
theorem Beside.put_new (beside : Beside root name tree joined) (ends : suffix <:+ name)
    (here : place = root.child name) : Beside root name tree (joined.put place new) := by
  subst here
  constructor
  · intro other ends' distinct
    rw [Tree.look_put_of_ne stands file written (child_collapse_ne ends ends' distinct)]
    exact beside.looks other ends' distinct
  · exact ⟨new, Tree.look_put_self stands file written, written⟩

/-- A file that both trees have is written over in both, so they go on differing in the new file
alone. -/
theorem Beside.put_both (beside : Beside root name tree joined)
    (same : joined.look place = tree.look place) :
    Beside root name (tree.put place new) (joined.put place new) := by
  have standsBefore : tree.look place = .ok old := same.symm.trans stands
  constructor
  · intro other ends' distinct
    rw [Tree.look_put stands file written, Tree.look_put standsBefore file written,
      beside.looks other ends' distinct]
  · obtain ⟨entry, standing, isFile⟩ := beside.stands
    rw [Tree.look_put stands file written, standing]
    refine ⟨_, rfl, ?_⟩
    rw [Tree.replaced]
    split
    · exact written
    · exact isFile

end Written

/-! ### Files that stand apart -/

/-- The routine of the new file has no other file, and no other routine of the folder has
the new one. -/
structure Apart (root : Path) (name : Text) (joined : Tree) (newcomer : Identity)
    (others : List Identity) : Prop where
  own : ∀ path entry, pathFor joined root newcomer = .ok path → joined.look path = .ok entry →
    entry.isFile = true → path = root.child name
  unsplit : ∀ other ∈ others, '/' ∉ other.qualified
  unused : ∀ other ∈ others, pathFor joined root other ≠ .ok (root.child name)

/-- Routines that stand apart from the new file still do after a file was written: the same files
stand in the folder. -/
theorem Apart.put {others : List Identity} (apart : Apart root name joined newcomer others)
    {place : Path} {old : Entry} (stands : joined.look place = .ok old) (file : old.isFile = true)
    (written : new.isFile = true) : Apart root name (joined.put place new) newcomer others := by
  refine ⟨?_, apart.unsplit, ?_⟩
  · intro path entry found look isFile
    rw [pathFor_put stands file written] at found
    obtain ⟨before, looked, wasFile⟩ := look_put_file stands file written look isFile
    exact apart.own path before found looked wasFile
  · intro other listed
    rw [pathFor_put stands file written]
    exact apart.unused other listed

/-! ### Listing -/

/-- The folder is there and can be listed, and a definition file of the name can be added. -/
structure Receives (tree : Tree) (root : Path) (name : Text) : Prop where
  proper : tree.Proper
  folder : tree.look root = .ok .directory
  legible : Legible tree root
  ends : suffix <:+ name
  unsplit : '/' ∉ name
  free : tree.look (root.child name) = .error (.missing (root.child name))

/-- Files that load give their routines one by one. -/
theorem Loads.map_load {paths : List Path} {loaded : List Routine} (loads : Loads tree paths loaded) :
    paths.map (load tree) = loaded.map .ok := by
  induction loads with
  | nil => rfl
  | cons first _ inductionHypothesis => rw [List.map_cons, List.map_cons, first, inductionHypothesis]

/-- Where only one item fails, its failure is the answer. The induction is over the items, and all
that stand before the bad one have results. -/
theorem mapM_eq_error {α β ε : Type} {action : α → Except ε β} {items : List α} {bad : α} {fault : ε}
    (member : bad ∈ items) (fails : action bad = .error fault)
    (others : ∀ item ∈ items, item ≠ bad → ∃ result, action item = .ok result) :
    items.mapM action = .error fault := by
  induction items with
  | nil => cases member
  | cons item items inductionHypothesis =>
    rw [List.mapM_cons]
    by_cases here : item = bad
    · rw [here, fails]
      rfl
    · obtain ⟨result, succeeds⟩ := others item List.mem_cons_self here
      have later : bad ∈ items := (List.mem_cons.mp member).resolve_left (Ne.symm here)
      rw [succeeds, inductionHypothesis later fun item listed =>
        others item (List.mem_cons_of_mem _ listed)]
      rfl

namespace Receives

variable (receives : Receives tree root name) (file : new.isFile = true)

include receives

/-- A file that was listed before is not the new one. -/
theorem ne_of_mem_files (listed : path ∈ files tree root) : path ≠ root.child name := by
  rintro rfl
  obtain ⟨_, entry, _, _, stands, _⟩ := mem_files.mp listed
  rw [receives.free] at stands
  cases stands

/-- A tree stays proper with one file more. -/
theorem properNow : (tree.put (root.child name) new).Proper :=
  receives.proper.put_new receives.folder (ne_points_of_suffix receives.ends) receives.unsplit
    (Tree.free_of_missing receives.folder receives.free).2

include file

/-- The tree with the new file is the old one beside it. -/
theorem beside : Beside root name tree (tree.put (root.child name) new) :=
  .ofNew receives.folder receives.ends receives.free file

/-- A file that was listed before loads as before. It is another file than the new one, since
nothing stood where that one is put. -/
theorem load_eq (listed : path ∈ files tree root) :
    load (tree.put (root.child name) new) path = load tree path := by
  have elsewhere := receives.ne_of_mem_files listed
  obtain ⟨other, entry, rfl, ends, _, _⟩ := mem_files.mp listed
  have distinct : other ≠ name := by
    rintro rfl
    exact elsewhere rfl
  rw [load, load, Tree.readText, Tree.readBytes, Tree.readText, Tree.readBytes,
    (receives.beside file).looks other ends distinct]

/-- The new file is listed, and the other ones are as before, each in both trees or in neither. -/
theorem files_perm : (files (tree.put (root.child name) new) root).Perm
    (root.child name :: files tree root) := by
  have beside := receives.beside file
  refine (List.perm_ext_iff_of_nodup (nodup_files receives.properNow) ?_).mpr ?_
  · refine List.nodup_cons.mpr ⟨?_, nodup_files receives.proper⟩
    exact fun listed => receives.ne_of_mem_files listed rfl
  · intro path
    constructor
    · intro listed
      obtain ⟨other, entry, rfl, ends, stands, isFile⟩ := mem_files.mp listed
      by_cases same : other = name
      · rw [same]
        exact List.mem_cons_self
      · rw [beside.looks other ends same] at stands
        exact List.mem_cons_of_mem _ (mem_files.mpr ⟨other, entry, rfl, ends, stands, isFile⟩)
    · intro listed
      rcases List.mem_cons.mp listed with rfl | older
      · obtain ⟨entry, stands, isFile⟩ := beside.stands
        exact mem_files.mpr ⟨name, entry, rfl, receives.ends, stands, isFile⟩
      · have elsewhere := receives.ne_of_mem_files older
        obtain ⟨other, entry, rfl, ends, stands, isFile⟩ := mem_files.mp older
        have distinct : other ≠ name := by
          rintro rfl
          exact elsewhere rfl
        exact mem_files.mpr
          ⟨other, entry, rfl, ends, (beside.looks other ends distinct).trans stands, isFile⟩

/-- A new file that cannot be loaded spoils the whole list. It is one of the files, and all others
are loaded as before. -/
theorem routines_error {failure : Failure}
    (fails : load (tree.put (root.child name) new) (root.child name) = .error failure) :
    routines (tree.put (root.child name) new) root = .error failure := by
  have perm := receives.files_perm file
  obtain ⟨loaded, _, loads⟩ := receives.legible.routines
  have spoiled := mapM_eq_error (perm.mem_iff.mpr List.mem_cons_self) fails fun path listed other => by
    have older := (List.mem_cons.mp (perm.mem_iff.mp listed)).resolve_left other
    obtain ⟨routine, _, loaded⟩ := loads.target older
    exact ⟨routine, (receives.load_eq file older).trans loaded⟩
  rw [routines, spoiled]
  rfl

/-- A new file that can be loaded adds its routine to the list, at the place where its name
belongs. -/
theorem routines_ok {routine : Routine}
    (loads : load (tree.put (root.child name) new) (root.child name) = .ok routine) :
    ∃ loaded joined, Loads tree (files tree root) loaded ∧
      routines tree root = .ok (sortRoutines loaded) ∧
      routines (tree.put (root.child name) new) root = .ok (sortRoutines joined) ∧
      joined.Perm (routine :: loaded) := by
  have perm := receives.files_perm file
  obtain ⟨loaded, listed, loadsOld⟩ := receives.legible.routines
  have legible : Legible (tree.put (root.child name) new) root := by
    intro path listed
    obtain ⟨found, loadsPath⟩ : ∃ found, load (tree.put (root.child name) new) path = .ok found := by
      rcases List.mem_cons.mp (perm.mem_iff.mp listed) with rfl | older
      · exact ⟨routine, loads⟩
      · obtain ⟨found, _, loaded⟩ := loadsOld.target older
        exact ⟨found, (receives.load_eq file older).trans loaded⟩
    obtain ⟨readable, named, _⟩ := load_eq_ok_iff.mp loadsPath
    exact ⟨⟨_, readable⟩, _, named⟩
  obtain ⟨joined, listedNow, loadsNow⟩ := legible.routines
  refine ⟨loaded, joined, loadsOld, listed, listedNow, ?_⟩
  have older : (files tree root).map (load (tree.put (root.child name) new)) =
      (files tree root).map (load tree) :=
    List.map_congr_left fun path member => receives.load_eq file member
  have results := perm.map (load (tree.put (root.child name) new))
  rw [loadsNow.map_load, List.map_cons, loads, older, loadsOld.map_load, ← List.map_cons] at results
  exact (List.map_perm_map_iff fun first second => Except.ok.inj).mp results

end Receives

/-- No other file defines the routine of a file, no other routine of the folder is looked
for in it, and its routine is looked for in no other file. -/
structure StandsApart (tree : Tree) (root path : Path) : Prop where
  distinct : ∀ other ∈ files tree root, other ≠ path → identityFor other ≠ identityFor path
  unused : ∀ other ∈ files tree root, other ≠ path → ∀ identity,
    identityFor other = .ok identity → pathFor tree root identity ≠ .ok path
  own : ∀ other ∈ files tree root, other ≠ path → ∀ identity,
    identityFor path = .ok identity → pathFor tree root identity ≠ .ok other

/-- In a tidy folder, all files stand apart: each routine is looked for in the file that names it,
so no other file can be taken for that one. -/
theorem Tidy.standsApart (tidy : Tidy tree root) (legible : Legible tree root)
    (listed : path ∈ files tree root) : StandsApart tree root path := by
  obtain ⟨_, identity, named⟩ := legible path listed
  have found := tidy.pathFor listed named
  refine ⟨?_, ?_, ?_⟩
  · intro other member elsewhere same
    have found' := tidy.pathFor member (same.trans named)
    exact elsewhere (Except.ok.inj (found'.symm.trans found))
  · intro other member elsewhere identity' named' found'
    have own := tidy.pathFor member named'
    exact elsewhere (Except.ok.inj (own.symm.trans found'))
  · intro other member elsewhere identity' named' found'
    have own := tidy.pathFor listed named'
    exact elsewhere (Except.ok.inj (found'.symm.trans own))

/-- What is found for a name without slashes is a definition file, if it is a file. -/
theorem mem_files_of_pathFor {entry : Entry} (unsplit : '/' ∉ identity.qualified)
    (found : pathFor tree root identity = .ok path) (stands : tree.look path = .ok entry)
    (file : entry.isFile = true) : path ∈ files tree root := by
  obtain same | ⟨_, same⟩ := pathFor_cases found
  · rw [fileNamed_eq_child root unsplit] at same
    exact mem_files.mpr ⟨_, entry, same, List.suffix_append _ _, stands, file⟩
  · rw [fileNamed_eq_child root (not_mem_name unsplit)] at same
    exact mem_files.mpr ⟨_, entry, same, List.suffix_append _ _, stands, file⟩

/-- A file that stands apart is looked for by no routine of the other files, in whichever of the
two ways a routine is looked for. -/
theorem StandsApart.apart (proper : tree.Proper) (listed : root.child name ∈ files tree root)
    (stands : StandsApart tree root (root.child name))
    (named : identityFor (root.child name) = .ok newcomer) {others : List Identity}
    (defined : ∀ other ∈ others, ∃ path ∈ files tree root, path ≠ root.child name ∧
      identityFor path = .ok other) : Apart root name tree newcomer others := by
  refine ⟨?_, ?_, ?_⟩
  · intro path entry found look isFile
    have unsplit := unsplit_of_mem_files proper listed named
    have member := mem_files_of_pathFor unsplit found look isFile
    by_contra elsewhere
    exact stands.own path member elsewhere newcomer named found
  · intro other member
    obtain ⟨path, inFolder, _, namedOther⟩ := defined other member
    exact unsplit_of_mem_files proper inFolder namedOther
  · intro other member
    obtain ⟨path, inFolder, elsewhere, namedOther⟩ := defined other member
    exact stands.unused path inFolder elsewhere other namedOther

end SqlRenewal.Folder
