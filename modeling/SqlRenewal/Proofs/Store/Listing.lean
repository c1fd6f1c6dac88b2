import SqlRenewal.Proofs.Files.Directory
import SqlRenewal.Proofs.Routine.Naming

/-!
# The listing of a folder

The listing goes through the definition files and reads the name of a routine off each of
them. Whoever wants the text of a routine goes the other way, from the name to a file.
Both ways meet, whatever stands in the files, exactly if every file has the name under
which its routine is looked for: the qualified one, or in the default schema the plain one
if nothing has the qualified one.

Brackets and blanks in the name of a file are no part of the name of its routine, so a
file with such a name is listed and never found again. Two files of one routine are listed
both, and only one of them is found.
-/
namespace SqlRenewal

/-- A list has results if every item has one, in the same order. The induction is over the
items. -/
theorem mapM_eq_ok_iff {α β ε : Type} {action : α → Except ε β} {items : List α}
    {results : List β} : items.mapM action = .ok results ↔
      List.Forall₂ (fun item result => action item = .ok result) items results := by
  induction items generalizing results with
  | nil =>
    rw [List.mapM_nil, List.forall₂_nil_left_iff]
    exact ⟨fun same => (Except.ok.inj same).symm, fun same => same ▸ rfl⟩
  | cons item items inductionHypothesis =>
    rw [List.mapM_cons, List.forall₂_cons_left_iff]
    cases first : action item with
    | error fault => simp [bind, Except.bind]
    | ok result =>
      cases rest : items.mapM action with
      | error fault =>
        simp only [bind, Except.bind, reduceCtorEq, false_iff]
        rintro ⟨_, others, _, related, _⟩
        rw [← inductionHypothesis, rest] at related
        cases related
      | ok others =>
        have related := inductionHypothesis.mp rest
        simp only [bind, Except.bind, pure, Except.pure, Except.ok.injEq]
        constructor
        · rintro rfl
          exact ⟨result, others, rfl, related, rfl⟩
        · rintro ⟨_, others', rfl, related', rfl⟩
          rw [← inductionHypothesis, rest] at related'
          rw [Except.ok.inj related']

namespace Folder

variable {tree : Tree} {root path : Path} {identity : Identity} {routine : Routine} {text : Text}
  {old new : Entry}

/-! ### Definition files -/

/-- What stands at a path is what is found there. -/
theorem get?_eq_some_iff : tree.get? path = some new ↔ tree.look path = .ok new := by
  rw [Tree.get?]
  cases tree.look path <;> simp [Except.toOption]

/-- A name with the suffix is not that of the directory above. -/
theorem ne_points_of_suffix {name : Text} (ends : suffix <:+ name) : name ≠ ['.', '.'] := by
  intro same
  have longer := ends.length_le
  simp [same, suffix] at longer

/-- The files of a folder are those names with the suffix under which a file is found. -/
theorem mem_files : path ∈ files tree root ↔ ∃ name entry, path = root.child name ∧
    suffix <:+ name ∧ tree.look path = .ok entry ∧ entry.isFile = true := by
  simp only [files, List.mem_filter, List.mem_map, List.isSuffixOf_iff_suffix, Option.any_eq_true,
    get?_eq_some_iff]
  constructor
  · rintro ⟨⟨name, ⟨_, ends⟩, rfl⟩, entry, stands, file⟩
    exact ⟨name, entry, rfl, ends, stands, file⟩
  · rintro ⟨name, entry, rfl, ends, stands, file⟩
    have listed := Tree.mem_names_of_entry? (ne_points_of_suffix ends) (Tree.look_eq_ok stands)
    exact ⟨⟨name, ⟨listed, ends⟩, rfl⟩, entry, stands, file⟩

/-- No file is listed twice, as no name is. -/
theorem nodup_files (proper : tree.Proper) : (files tree root).Nodup := by
  refine List.Nodup.filter _ (List.Nodup.map ?_ ((proper.nodup_names root).filter _))
  exact fun first second => Path.child_inj

/-- A listed file is there. -/
theorem holds_of_mem_files (listed : path ∈ files tree root) : tree.holds path = .ok true := by
  obtain ⟨name, entry, _, _, stands, _⟩ := mem_files.mp listed
  rw [Tree.holds, stands]

/-- A file that is written over stays where it is: no name is added or lost, and what was a file
still is one. -/
theorem files_put (stands : tree.look path = .ok old) (file : old.isFile = true)
    (written : new.isFile = true) : files (tree.put path new) root = files tree root := by
  have same (other : Path) : ((tree.put path new).get? other).any Entry.isFile =
      (tree.get? other).any Entry.isFile := by
    rw [Tree.get?, Tree.get?, Tree.look_put stands file written]
    cases look : tree.look other with
    | error fault => rfl
    | ok entry =>
      simp only [Except.map, Except.toOption, Option.any_some, Tree.replaced]
      split
      · rename_i here
        have found := Tree.look_eq_ok look
        rw [here, Tree.look_eq_ok stands] at found
        rw [written, ← Option.some.inj found, file]
      · rfl
  rw [files, files, Tree.names_put (Tree.look_eq_ok stands) file]
  simp only [same]

/-- A file is loaded if it can be read and its name names a routine; the kind is seen in the
text. -/
theorem load_eq_ok_iff : load tree path = .ok routine ↔
    tree.readText path = .ok routine.text ∧ identityFor path = .ok routine.identity ∧
      routine.kind = kindOf routine.text := by
  obtain ⟨identity, kind, text⟩ := routine
  rw [load]
  cases tree.readText path with
  | error fault => simp [Except.mapError, bind, Except.bind]
  | ok found =>
    cases identityFor path with
    | error fault => simp [Except.mapError, bind, Except.bind]
    | ok named =>
      simp only [Except.mapError, bind, Except.bind, pure, Except.pure, Except.ok.injEq,
        Routine.mk.injEq]
      constructor
      · rintro ⟨rfl, rfl, rfl⟩
        exact ⟨rfl, rfl, rfl⟩
      · rintro ⟨rfl, rfl, rfl⟩
        exact ⟨rfl, rfl, rfl⟩

/-- The routines are those of the files, in their order. -/
def Loads (tree : Tree) (paths : List Path) (loaded : List Routine) : Prop :=
  List.Forall₂ (fun path routine => load tree path = .ok routine) paths loaded

/-- Every routine that was loaded comes from one of the files, by induction over the loading,
which takes the files in order. -/
theorem Loads.source {paths : List Path} {loaded : List Routine} (loads : Loads tree paths loaded)
    (member : routine ∈ loaded) : ∃ path ∈ paths, load tree path = .ok routine := by
  induction loads with
  | nil => cases member
  | cons first _ inductionHypothesis =>
    rcases List.mem_cons.mp member with rfl | later
    · exact ⟨_, List.mem_cons_self, first⟩
    · obtain ⟨path, listed, loads⟩ := inductionHypothesis later
      exact ⟨path, List.mem_cons_of_mem _ listed, loads⟩

/-- Every file that was loaded gives one of the routines, by the same induction from the other
side. -/
theorem Loads.target {paths : List Path} {loaded : List Routine} (loads : Loads tree paths loaded)
    (member : path ∈ paths) : ∃ routine ∈ loaded, load tree path = .ok routine := by
  induction loads with
  | nil => cases member
  | cons first _ inductionHypothesis =>
    rcases List.mem_cons.mp member with rfl | later
    · exact ⟨_, List.mem_cons_self, first⟩
    · obtain ⟨routine, listed, loads⟩ := inductionHypothesis later
      exact ⟨routine, List.mem_cons_of_mem _ listed, loads⟩

/-- All definition files have a text and the name of a routine. -/
def Legible (tree : Tree) (root : Path) : Prop :=
  ∀ path ∈ files tree root,
    (∃ text, tree.readText path = .ok text) ∧ ∃ identity, identityFor path = .ok identity

/-- A legible folder is listed file by file. Every file can be loaded, and by induction all of
them are. -/
theorem Legible.routines (legible : Legible tree root) :
    ∃ loaded, routines tree root = .ok (sortRoutines loaded) ∧
      Loads tree (files tree root) loaded := by
  have each : ∀ path ∈ files tree root, ∃ routine, load tree path = .ok routine := by
    intro path listed
    obtain ⟨⟨text, readable⟩, identity, named⟩ := legible path listed
    exact ⟨⟨identity, kindOf text, text⟩, load_eq_ok_iff.mpr ⟨readable, named, rfl⟩⟩
  obtain ⟨loaded, loads⟩ : ∃ loaded, Loads tree (files tree root) loaded := by
    generalize files tree root = paths at each
    induction paths with
    | nil => exact ⟨[], .nil⟩
    | cons first paths inductionHypothesis =>
      obtain ⟨routine, loads⟩ := each first (by simp)
      obtain ⟨others, later⟩ := inductionHypothesis fun path listed => each path (by simp [listed])
      exact ⟨routine :: others, .cons loads later⟩
  refine ⟨loaded, ?_, loads⟩
  rw [Folder.routines, mapM_eq_ok_iff.mpr loads]
  rfl

/-! ### The names of files -/

/-- The names of routines in a folder have no slashes in them, since they are parts of the name of
a file. -/
theorem unsplit_of_mem_files (proper : tree.Proper) (listed : path ∈ files tree root)
    (named : identityFor path = .ok identity) : '/' ∉ identity.qualified := by
  obtain ⟨name, entry, rfl, ends, stands, _⟩ := mem_files.mp listed
  have inFolder := Tree.mem_names_of_entry? (ne_points_of_suffix ends) (Tree.look_eq_ok stands)
  have unsplit := proper.unsplit_name inFolder
  have stem : '/' ∉ (root.child name).stem := by
    intro member
    refine unsplit ?_
    rw [Path.stem, Path.child_name] at member
    split at member
    · rename_i tail before broken
      split at member
      · rw [List.mem_reverse] at member
        rw [← List.mem_reverse, Text.eq_of_breakAt? broken]
        exact List.mem_append_right _ (List.mem_cons_of_mem _ member)
      · exact member
    · exact member
  intro member
  rcases List.mem_append.mp member with inSchema | inName
  · rcases (Identity.mem_of_parse named).1 inSchema with default | inStem
    · exact absurd default (by decide)
    · exact stem inStem
  · rcases List.mem_cons.mp inName with point | inName
    · cases point
    · exact stem ((Identity.mem_of_parse named).2 inName)

/-- The name of a file leads from the routine to the file. -/
def Fits (tree : Tree) (root path : Path) (identity : Identity) : Prop :=
  path = fileNamed root identity.qualified ∨
    identity.schema = defaultSchema ∧ path = fileNamed root identity.name ∧
      tree.holds (fileNamed root identity.qualified) = .ok false

/-- All definition files have the names under which their routines are looked for. -/
def Tidy (tree : Tree) (root : Path) : Prop :=
  ∀ path ∈ files tree root, ∀ identity, identityFor path = .ok identity →
    Fits tree root path identity

/-- A routine is looked for in a file that stands there if the file fits it: by its full name, or
by the bare name where no other file has the full one. -/
theorem pathFor_eq_ok_iff (stands : tree.holds path = .ok true) :
    pathFor tree root identity = .ok path ↔ Fits tree root path identity := by
  constructor
  · intro found
    obtain same | ⟨standard, same⟩ := pathFor_cases found
    · exact .inl same
    · rw [pathFor] at found
      cases qualified : tree.holds (fileNamed root identity.qualified) with
      | error fault => simp [qualified, bind, Except.bind] at found
      | ok present =>
        cases present with
        | true =>
          simp only [qualified, bind, Except.bind, Bool.true_or, if_true, pure, Except.pure,
            Except.ok.injEq] at found
          exact .inl found.symm
        | false => exact .inr ⟨standard, same, qualified⟩
  · rintro (rfl | ⟨standard, rfl, absent⟩)
    · simp [pathFor, stands, bind, Except.bind, pure, Except.pure]
    · simp [pathFor, stands, absent, standard, bind, Except.bind, pure, Except.pure]

/-- In a tidy folder a routine is looked for in the file that names it. -/
theorem Tidy.pathFor (tidy : Tidy tree root) (listed : path ∈ files tree root)
    (named : identityFor path = .ok identity) : pathFor tree root identity = .ok path :=
  (pathFor_eq_ok_iff (holds_of_mem_files listed)).mpr (tidy path listed identity named)

/-! ### Listing and reading -/

/-- The listing names no routine twice, and every routine is read as it is listed. -/
def Agrees (tree : Tree) (root : Path) : Prop :=
  ∃ listed, routines tree root = .ok listed ∧ (listed.map Routine.identity).Nodup ∧
    ∀ routine ∈ listed, read tree root routine.identity = .ok routine.text

/-- To sort routines keeps them all. -/
theorem mem_sortRoutines {routines : List Routine} : routine ∈ sortRoutines routines ↔
    routine ∈ routines :=
  (List.mergeSort_perm _ _).mem_iff

/-- What is loaded from the file of a routine is read as its text. -/
theorem read_of_load (found : pathFor tree root routine.identity = .ok path)
    (loads : load tree path = .ok routine) : read tree root routine.identity = .ok routine.text := by
  obtain ⟨readable, _, _⟩ := load_eq_ok_iff.mp loads
  obtain ⟨⟨entry, stands, _⟩, _⟩ := readText_eq_ok readable
  rw [read_present (locate_eq_present found stands), readable]
  rfl

/-- With names that fit, the files are found again from the routines that they define. -/
theorem Tidy.map_pathFor (tidy : Tidy tree root) {paths : List Path} {loaded : List Routine}
    (loads : Loads tree paths loaded) (listed : ∀ path ∈ paths, path ∈ files tree root) :
    (loaded.map Routine.identity).map (Folder.pathFor tree root) = paths.map .ok := by
  induction loads with
  | nil => rfl
  | cons first _ inductionHypothesis =>
    have named := (load_eq_ok_iff.mp first).2.1
    simp only [List.map_cons, tidy.pathFor (listed _ List.mem_cons_self) named]
    rw [inductionHypothesis fun path later => listed path (List.mem_cons_of_mem _ later)]

/-- A tidy folder agrees with its listing: each listed routine is read from the file from which it
was loaded. -/
theorem Tidy.agrees (proper : tree.Proper) (legible : Legible tree root) (tidy : Tidy tree root) :
    Agrees tree root := by
  obtain ⟨loaded, listed, loads⟩ := legible.routines
  refine ⟨_, listed, ?_, ?_⟩
  · have distinct : (loaded.map Routine.identity).Nodup := by
      refine List.Nodup.of_map (Folder.pathFor tree root) ?_
      rw [tidy.map_pathFor loads fun _ => id]
      exact (nodup_files proper).map fun first second => Except.ok.inj
    exact ((List.mergeSort_perm _ _).map _).nodup_iff.mpr distinct
  · intro routine member
    obtain ⟨path, inFolder, loaded⟩ := loads.source (mem_sortRoutines.mp member)
    exact read_of_load (tidy.pathFor inFolder (load_eq_ok_iff.mp loaded).2.1) loaded

/-! ### Filling a file anew -/

section Filled

variable (stands : tree.look path = .ok old) (file : old.isFile = true)

include stands file

/-- A text that was written is read back with its line breaks unified, and every other file reads
as before. -/
theorem readText_put {other : Path} {entry : Entry} (found : tree.look other = .ok entry) :
    (tree.put path (.file (Utf8.encode text))).readText other =
      if other.collapse = path.collapse then .ok (unifyLineBreaks text)
      else tree.readText other := by
  rw [Tree.readText, Tree.readBytes, Tree.look_put stands file rfl, found]
  by_cases here : other.collapse = path.collapse
  · simp only [Except.map, Tree.replaced, here, if_true, Utf8.decode_encode]
  · simp only [Except.map, Tree.replaced, here, if_false]
    rw [Tree.readText, Tree.readBytes, found]

/-- A folder stays legible when a text is written into one of its files: the names are the same,
and what was written can be read. -/
theorem Legible.put (legible : Legible tree root) (text : Text) :
    Legible (tree.put path (.file (Utf8.encode text))) root := by
  intro other listed
  rw [files_put stands file rfl] at listed
  obtain ⟨readable, named⟩ := legible other listed
  obtain ⟨name, entry, _, _, found, _⟩ := mem_files.mp listed
  refine ⟨?_, named⟩
  rw [readText_put stands file found]
  split
  · exact ⟨_, rfl⟩
  · exact readable

/-- A folder stays tidy when a text is written into one of its files, because tidiness is about
names. -/
theorem Tidy.put (tidy : Tidy tree root) (text : Text) :
    Tidy (tree.put path (.file (Utf8.encode text))) root := by
  intro other listed identity named
  rw [files_put stands file rfl] at listed
  rw [Fits, Tree.holds_put stands file rfl]
  exact tidy other listed identity named

end Filled

/-- A definition file at the place of another one is the same file, because names with the suffix
are neither of the two that stand for other directories. -/
theorem eq_of_collapse_eq (listed : path ∈ files tree root) (unsplit : '/' ∉ identity.qualified)
    {place : Path} (found : pathFor tree root identity = .ok place)
    (same : place.collapse = path.collapse) : place = path := by
  obtain ⟨name, entry, rfl, ends, _, _⟩ := mem_files.mp listed
  have apart {other : Text} (whole : '/' ∉ other)
      (same : (fileNamed root other).collapse = (root.child name).collapse) :
      fileNamed root other = root.child name := by
    have here : fileNamed root other = root.child (other ++ suffix) := fileNamed_eq root whole
    have forwards := ne_points_of_suffix (List.suffix_append other suffix)
    rw [here, Path.collapse_child root forwards, Path.collapse_child root (ne_points_of_suffix ends)]
      at same
    rw [here, Path.child_inj same]
  obtain rfl | ⟨_, rfl⟩ := pathFor_cases found
  · exact apart unsplit same
  · exact apart (not_mem_name unsplit) same

/-- The listing and the texts agree, whatever is written into the files, exactly if the names of
the files fit. If a name does not fit, its routine is looked for in another file, and a text
written there shows the difference. -/
theorem tidy_iff_agrees (proper : tree.Proper) (legible : Legible tree root) :
    Tidy tree root ↔ Agrees tree root ∧ ∀ path ∈ files tree root, ∀ text,
      Agrees (tree.put path (.file (Utf8.encode text))) root := by
  constructor
  · intro tidy
    refine ⟨tidy.agrees proper legible, ?_⟩
    intro path listed text
    obtain ⟨name, entry, _, _, stands, file⟩ := mem_files.mp listed
    exact (tidy.put stands file text).agrees (proper.put_file (Tree.look_eq_ok stands) file)
      (legible.put stands file text)
  · rintro ⟨_, agree⟩ path listed identity named
    obtain ⟨name, entry, _, _, stands, file⟩ := mem_files.mp listed
    have filled (text : Text) : read (tree.put path (.file (Utf8.encode text))) root identity =
        .ok (unifyLineBreaks text) := by
      obtain ⟨routines, listing, _, reads⟩ := agree path listed text
      obtain ⟨loaded, listing', loads⟩ := (legible.put stands file text).routines
      have stays : path ∈ files (tree.put path (.file (Utf8.encode text))) root := by
        rw [files_put stands file rfl]
        exact listed
      obtain ⟨routine, member, loaded⟩ := loads.target stays
      obtain rfl := Except.ok.inj (listing.symm.trans listing')
      obtain ⟨readable, named', _⟩ := load_eq_ok_iff.mp loaded
      rw [readText_put stands file stands, if_pos rfl] at readable
      rw [Except.ok.inj readable, Except.ok.inj (named.symm.trans named')]
      exact reads routine (mem_sortRoutines.mpr member)
    rw [← pathFor_eq_ok_iff (holds_of_mem_files listed)]
    -- If the routine had another file, the same would be read for it after either of two texts
    -- has been written, yet each of them is read again.
    by_contra lost
    have kept (text : Text) : read (tree.put path (.file (Utf8.encode text))) root identity =
        read tree root identity := by
      refine read_put_of_ne stands file ?_
      intro place found same
      have unsplit := unsplit_of_mem_files proper listed named
      rw [eq_of_collapse_eq listed unsplit found same] at found
      exact lost found
    have first := (filled ['a']).symm.trans (kept ['a'])
    have second := (filled ['b']).symm.trans (kept ['b'])
    rw [← second] at first
    exact absurd first (by decide)

/-- A qualified name and a plain one both fit. -/
theorem tidy_iff_agrees_plain :
    let root : Path := ⟨.here, [['d']]⟩
    let tree : Tree := ⟨[(root, .directory),
      (root.child "s.n.sql".toList, .file (Utf8.encode "SELECT 1".toList)),
      (root.child "p.sql".toList, .file (Utf8.encode "SELECT 2".toList))]⟩
    tree.Proper ∧ Legible tree root ∧ Tidy tree root ∧ Agrees tree root := by
  intro root tree
  let plain : Identity := ⟨defaultSchema, ['p'], by decide, by decide⟩
  let qualified : Identity := ⟨['s'], ['n'], by decide, by decide⟩
  have proper : tree.Proper := ⟨by decide, by decide⟩
  have each {property : Path → Prop} (first : property (root.child "p.sql".toList))
      (second : property (root.child "s.n.sql".toList)) :
      ∀ path ∈ files tree root, property path := by
    have listing : files tree root = [root.child "p.sql".toList, root.child "s.n.sql".toList] := by
      cbv
    rw [listing, List.forall_mem_cons, List.forall_mem_singleton]
    exact ⟨first, second⟩
  have namedPlain : identityFor (root.child "p.sql".toList) = .ok plain := by cbv
  have namedQualified : identityFor (root.child "s.n.sql".toList) = .ok qualified := by cbv
  have legible : Legible tree root := by
    refine each ⟨⟨"SELECT 2".toList, ?_⟩, plain, namedPlain⟩
      ⟨⟨"SELECT 1".toList, ?_⟩, qualified, namedQualified⟩ <;> cbv
  have tidy : Tidy tree root := by
    refine each ?_ ?_
    · intro identity named
      obtain rfl := Except.ok.inj (namedPlain.symm.trans named)
      exact .inr ⟨rfl, rfl, by cbv⟩
    · intro identity named
      obtain rfl := Except.ok.inj (namedQualified.symm.trans named)
      exact .inl rfl
  exact ⟨proper, legible, tidy, ((tidy_iff_agrees proper legible).mp tidy).1⟩

/-- A file whose name has brackets in it is listed, and the routine that it defines is not
found. -/
theorem bracketed_file_not_found :
    let root : Path := ⟨.here, [['d']]⟩
    let tree : Tree := ⟨[(root, .directory),
      (root.child "[dbo].[p].sql".toList, .file (Utf8.encode "SELECT 1".toList))]⟩
    let routine : Routine :=
      ⟨⟨defaultSchema, ['p'], by decide, by decide⟩, procedureKind, "SELECT 1".toList⟩
    routines tree root = .ok [routine] ∧
      read tree root routine.identity = .error (.noRoutine routine.identity) := by
  constructor <;> cbv

end Folder

end SqlRenewal
