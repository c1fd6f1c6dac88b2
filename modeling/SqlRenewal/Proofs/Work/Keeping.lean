import SqlRenewal.Proofs.Store.Listing
import SqlRenewal.Proofs.Work.Sweep

/-!
# Definitions in good order

A table with one definition for each routine and a tidy folder have this in common: the
listing names each routine once, and every routine is read as it is listed. A text that is
written over another one is read again, the other routines keep theirs, and the order is
kept.
-/
namespace SqlRenewal

variable {desk : Desk} {identity : Identity} {text : Text}

/-- The definitions are in good order. -/
inductive Desk.Kept (desk : Desk) : Prop where
  | table {catalog : Catalog} (shelf : desk.shelf = .table (some catalog))
      (distinct : (catalog.map Routine.identity).Nodup)
  | folder {root : Path} (shelf : desk.shelf = .folder root) (proper : desk.files.Proper)
      (legible : Folder.Legible desk.files root) (tidy : Folder.Tidy desk.files root)

/-- The names of the listed routines. -/
def Desk.names (desk : Desk) : List Identity :=
  match desk.routines with
  | .ok routines => routines.map Routine.identity
  | .error _ => []

/-! ### Listing and reading -/

/-- Routines are sorted by their identities. -/
theorem map_sortRoutines (routines : List Routine) :
    (sortRoutines routines).map Routine.identity =
      (routines.map Routine.identity).mergeSort Identity.ble :=
  List.map_mergeSort fun _ _ _ _ => rfl

/-- A routine of a table is found under its identity, since no other one has it. -/
theorem Catalog.routine?_eq_some {catalog : Catalog} {routine : Routine}
    (distinct : (catalog.map Routine.identity).Nodup) (member : routine ∈ catalog) :
    catalog.routine? routine.identity = some routine := by
  cases found : catalog.routine? routine.identity with
  | none =>
    have absent := List.find?_eq_none.mp found routine member
    simp at absent
  | some other =>
    have same := Catalog.routine?_identity found
    rw [List.inj_on_of_nodup_map distinct (List.mem_of_find?_eq_some found) member same]

/-- The listing names no routine twice, and every routine is read as it is listed, in a table as
in a tidy folder. -/
theorem Desk.Kept.agrees (kept : desk.Kept) :
    ∃ listed, desk.routines = .ok listed ∧ (listed.map Routine.identity).Nodup ∧
      ∀ routine ∈ listed, desk.read routine.identity = .ok routine.text := by
  cases kept with
  | @table catalog shelf distinct =>
    refine ⟨sortRoutines catalog, ?_, ?_, ?_⟩
    · rw [Desk.routines, shelf]
    · rw [map_sortRoutines]
      exact (List.mergeSort_perm _ _).nodup_iff.mpr distinct
    · intro routine member
      have found := Catalog.routine?_eq_some distinct (Folder.mem_sortRoutines.mp member)
      simp only [Desk.read, shelf, found, Option.map_some]
  | @folder root shelf proper legible tidy =>
    obtain ⟨listed, routines, distinct, reads⟩ := Folder.Tidy.agrees proper legible tidy
    refine ⟨listed, ?_, distinct, ?_⟩
    · rw [Desk.routines, shelf]
      exact routines
    · intro routine member
      rw [Desk.read, shelf]
      exact reads routine member

/-- A listed routine can be read. -/
theorem Desk.Kept.read_listed (kept : desk.Kept) (listed : identity ∈ desk.names) :
    ∃ text, desk.read identity = .ok text := by
  obtain ⟨routines, listing, _, reads⟩ := kept.agrees
  rw [Desk.names, listing] at listed
  obtain ⟨routine, member, rfl⟩ := List.mem_map.mp listed
  exact ⟨routine.text, reads routine member⟩

/-! ### Writing -/

/-- A routine has another text; all else is as before, and in good order. -/
structure Desk.Reworded (desk after : Desk) (identity : Identity) (text : Text) : Prop where
  kept : after.Kept
  names : after.names = desk.names
  reads : after.read identity = .ok text
  others : ∀ other ∈ desk.names, other ≠ identity → after.read other = desk.read other

/-- To put a text in the place of a routine of a table rewords that routine, and no other. -/
theorem reworded_table {catalog : Catalog} (shelf : desk.shelf = .table (some catalog))
    (distinct : (catalog.map Routine.identity).Nodup) (listed : identity ∈ desk.names)
    (text : Text) : desk.Reworded (desk.withText identity text) identity text := by
  have shelfNow : (desk.withText identity text).shelf =
      .table (some (catalog.setText identity text)) := by
    simp only [Desk.withText, shelf, Shelf.withText]
  have identities : (catalog.setText identity text).map Routine.identity =
      catalog.map Routine.identity := by
    rw [Catalog.setText, List.map_map]
    refine List.map_congr_left ?_
    intro routine _
    rw [Function.comp_apply]
    split <;> rfl
  have names : (desk.withText identity text).names = desk.names := by
    simp only [Desk.names, Desk.routines, shelfNow, shelf, map_sortRoutines, identities]
  refine ⟨.table shelfNow (identities ▸ distinct), names, ?_, ?_⟩
  · obtain ⟨old, read⟩ := (Desk.Kept.table shelf distinct).read_listed listed
    rw [Desk.read, shelf] at read
    simp only [Desk.read, shelfNow, Catalog.text_setText, if_true]
    cases found : catalog.routine? identity with
    | none => simp [found] at read
    | some routine => rfl
  · intro other _ elsewhere
    simp only [Desk.read, shelfNow, shelf, Catalog.text_setText, if_neg elsewhere]

/-- The names of routines are read off the names of their files. -/
theorem Folder.Loads.map_identity {tree : Tree} {paths : List Path} {loaded : List Routine}
    (loads : Folder.Loads tree paths loaded) :
    paths.map Folder.identityFor = (loaded.map Routine.identity).map .ok := by
  induction loads with
  | nil => rfl
  | cons first _ inductionHypothesis =>
    simp only [List.map_cons, (Folder.load_eq_ok_iff.mp first).2.1, inductionHypothesis]

/-- To write a text to the file of a routine rewords that routine: in a tidy folder no other
routine is looked for in that file. -/
theorem reworded_folder {root : Path} (shelf : desk.shelf = .folder root)
    (proper : desk.files.Proper) (legible : Folder.Legible desk.files root)
    (tidy : Folder.Tidy desk.files root) (listed : identity ∈ desk.names)
    (sealed : '\r' ∉ text) : desk.Reworded (desk.withText identity text) identity text := by
  obtain ⟨loaded, listing, loads⟩ := legible.routines
  have routines : desk.routines = .ok (sortRoutines loaded) := by
    rw [Desk.routines, shelf]
    exact listing
  have fileOf {other : Identity} (listed : other ∈ desk.names) :
      ∃ path ∈ Folder.files desk.files root, Folder.identityFor path = .ok other ∧
        Folder.pathFor desk.files root other = .ok path := by
    rw [Desk.names, routines] at listed
    obtain ⟨routine, member, rfl⟩ := List.mem_map.mp listed
    obtain ⟨path, inFolder, loaded⟩ := loads.source (Folder.mem_sortRoutines.mp member)
    have named := (Folder.load_eq_ok_iff.mp loaded).2.1
    exact ⟨path, inFolder, named, tidy.pathFor inFolder named⟩
  obtain ⟨path, inFolder, named, found⟩ := fileOf listed
  obtain ⟨name, old, _, _, stands, file⟩ := Folder.mem_files.mp inFolder
  have shelfNow : (desk.withText identity text).shelf = .folder root := by
    simp only [Desk.withText, shelf, Shelf.withText]
  have filesNow : (desk.withText identity text).files =
      desk.files.put path (.file (Utf8.encode text)) := by
    simp only [Desk.withText, shelf, Shelf.filesWithText, found]
  have legibleNow := legible.put stands file text
  refine ⟨.folder shelfNow (filesNow ▸ proper.put_file (Tree.look_eq_ok stands) file)
    (filesNow ▸ legibleNow) (filesNow ▸ tidy.put stands file text), ?_, ?_, ?_⟩
  · obtain ⟨loadedNow, listingNow, loadsNow⟩ := legibleNow.routines
    -- No file changes its name, so the same names are read off.
    have identities : loadedNow.map Routine.identity = loaded.map Routine.identity := by
      have same := loadsNow.map_identity
      rw [Folder.files_put stands file rfl, loads.map_identity] at same
      exact (List.map_injective_iff.mpr fun _ _ => Except.ok.inj) same.symm
    simp only [Desk.names, Desk.routines, shelfNow, shelf, filesNow, listing, listingNow,
      map_sortRoutines, identities]
  · rw [Desk.read, shelfNow, filesNow]
    simp only
    rw [Folder.read_put_self stands file found, unifyLineBreaks_of_no_return sealed]
  · intro other listedOther elsewhere
    obtain ⟨place, inFolder', named', found'⟩ := fileOf listedOther
    rw [Desk.read, Desk.read, shelfNow, shelf, filesNow]
    refine Folder.read_put_of_ne stands file ?_
    intro place' found'' same
    obtain rfl := Except.ok.inj (found'.symm.trans found'')
    have unsplit := Folder.unsplit_of_mem_files proper inFolder' named'
    obtain rfl := Folder.eq_of_collapse_eq inFolder unsplit found' same
    exact elsewhere (Except.ok.inj (named'.symm.trans named))

/-- A listed routine can be given another text, as long as no carriage return is in it. -/
theorem Desk.Kept.reworded (kept : desk.Kept) (listed : identity ∈ desk.names)
    (sealed : '\r' ∉ text) : desk.Reworded (desk.withText identity text) identity text := by
  cases kept with
  | table shelf distinct => exact reworded_table shelf distinct listed text
  | folder shelf proper legible tidy => exact reworded_folder shelf proper legible tidy listed sealed

end SqlRenewal
