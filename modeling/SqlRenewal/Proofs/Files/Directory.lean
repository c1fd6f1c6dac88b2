import Mathlib.Data.List.Nodup
import SqlRenewal.Proofs.Files.Tree

/-!
# The names in a directory

What a name in a directory leads to is decided by its spelling and by the entry at its
place. A file that is written over leaves the names of every directory as they are. A new
file adds its own name; all other names lead where they led before.
-/
namespace SqlRenewal

/-! ### Paths -/

namespace Path

/-- The path of a name in a directory. -/
def child (directory : Path) (name : Text) : Path :=
  { directory with parts := directory.parts ++ [name] }

/-- What stands in a directory has that directory above it. -/
@[simp] theorem child_directory (path : Path) (name : Text) : (path.child name).directory = path := by
  simp [child, directory]

/-- What stands in a directory is called by its own name. -/
@[simp] theorem child_name (path : Path) (name : Text) : (path.child name).name = name := by
  simp [child, Path.name]

/-- Two names in one directory are the same path only if they are the same name. -/
theorem child_inj {path : Path} {first second : Text} (same : path.child first = path.child second) :
    first = second := by
  rw [← child_name path first, same, child_name]

/-- A name is no detour, unless it leads back. -/
theorem collapse_child (path : Path) {name : Text} (forwards : name ≠ ['.', '.']) :
    (path.child name).collapse = path.collapse.child name := by
  simp [child, collapse, step, forwards]

/-- A path with parts is a name in the directory above it. -/
theorem eq_child {path : Path} (inner : path.parts ≠ []) : path = path.directory.child path.name := by
  obtain ⟨anchor, parts⟩ := path
  simp only [child, directory, Path.name, List.getLast?_eq_some_getLast inner, Option.getD_some,
    List.dropLast_append_getLast]

end Path

namespace Tree

variable {tree : Tree} {root path : Path} {name : Text} {old new : Entry}

/-- No two entries stand at the same place, and no name has a slash in it. -/
structure Proper (tree : Tree) : Prop where
  distinct : (tree.entries.map Prod.fst).Nodup
  unsplit : ∀ entry ∈ tree.entries, ∀ part ∈ entry.1.parts, '/' ∉ part

/-! ### Names -/

/-- The names in a directory are those under which an entry stands there. Sorting does not change
which there are, and a place inside the directory is the directory with its name. -/
theorem mem_names : name ∈ tree.names root ↔
    ∃ entry, (root.collapse.child name, entry) ∈ tree.entries := by
  simp only [names, (List.mergeSort_perm _ _).mem_iff, List.mem_map, List.mem_filter,
    decide_eq_true_eq]
  constructor
  · rintro ⟨⟨place, entry⟩, ⟨listed, inner, inside⟩, rfl⟩
    refine ⟨entry, ?_⟩
    rw [← inside, ← Path.eq_child inner]
    exact listed
  · rintro ⟨entry, listed⟩
    refine ⟨_, ⟨listed, ?_, Path.child_directory _ _⟩, Path.child_name _ _⟩
    simp [Path.child]

/-- Where something stands, its directory has its name. The entry is listed under the child of the
directory, and the names are those of all such children. -/
theorem mem_names_of_entry? (forwards : name ≠ ['.', '.'])
    (stands : tree.entry? (root.child name).collapse = some old) : name ∈ tree.names root := by
  rw [Path.collapse_child root forwards, entry?, if_neg] at stands
  · obtain ⟨kept, found, rfl⟩ := Option.map_eq_some_iff.mp stands
    have place : kept.1 = root.collapse.child name := by simpa using List.find?_some found
    refine mem_names.mpr ⟨kept.2, ?_⟩
    rw [← place]
    exact List.mem_of_find?_eq_some found
  · simp [Path.child, forwards]

/-- No name is listed twice in a directory of a proper tree, since no two entries stand at one
place. -/
theorem Proper.nodup_names (proper : tree.Proper) (root : Path) : (tree.names root).Nodup := by
  rw [names, (List.mergeSort_perm _ _).nodup_iff]
  refine (List.Nodup.filter _ proper.distinct.of_map).map_on ?_
  intro first listed second listed' same
  simp only [List.mem_filter, decide_eq_true_eq] at listed listed'
  obtain ⟨listed, inner, inside⟩ := listed
  obtain ⟨listed', inner', inside'⟩ := listed'
  refine List.inj_on_of_nodup_map proper.distinct listed listed' ?_
  rw [Path.eq_child inner, Path.eq_child inner', inside, inside', same]

/-- The names in a directory have no slashes in them. -/
theorem Proper.unsplit_name (proper : tree.Proper) (listed : name ∈ tree.names root) :
    '/' ∉ name := by
  obtain ⟨entry, stands⟩ := mem_names.mp listed
  exact proper.unsplit _ stands name (by simp [Path.child])

/-! ### Writing over a file -/

/-- Where a file is written over, no entry changes its place: the new content is put into every
entry at that place, and at the others nothing is done. -/
theorem places_put (stands : tree.entry? path.collapse = some old) (file : old.isFile = true)
    (new : Entry) : (tree.put path new).entries.map Prod.fst = tree.entries.map Prod.fst := by
  rw [ entry?] at stands
  split at stands
  · cases stands
    cases file
  · obtain ⟨kept, listed, same⟩ := Option.map_eq_some_iff.mp stands
    have named : (kept.1 == path.collapse) = true := by simpa using List.find?_some listed
    have present : tree.entries.any (·.1 == path.collapse) = true :=
      List.any_eq_true.mpr ⟨kept, List.mem_of_find?_eq_some listed, named⟩
    rw [put, if_pos present, List.map_map]
    refine List.map_congr_left ?_
    intro entry _
    rw [Function.comp_apply]
    split
    · rename_i here
      exact here.symm
    · rfl

/-- A file that takes the place of a file changes no list of names, because such a list is made of
the places of entries only. -/
theorem names_put (stands : tree.entry? path.collapse = some old) (file : old.isFile = true)
    (root : Path) : (tree.put path new).names root = tree.names root := by
  have places := places_put stands file new
  have inside (entries : List (Path × Entry)) :
      (entries.filter fun entry => entry.1.parts ≠ [] ∧ entry.1.directory = root.collapse).map
        (fun entry => entry.1.name) =
      ((entries.map Prod.fst).filter fun place =>
        place.parts ≠ [] ∧ place.directory = root.collapse).map Path.name := by
    rw [List.filter_map, List.map_map]
    rfl
  simp only [names, inside, places]

/-- A tree stays proper if a file takes the place of a file: the places of the entries are the
same. -/
theorem Proper.put_file (proper : tree.Proper) (stands : tree.entry? path.collapse = some old)
    (file : old.isFile = true) : (tree.put path new).Proper := by
  have places := places_put stands file new
  refine ⟨places ▸ proper.distinct, ?_⟩
  intro entry listed part inside
  have kept : entry.1 ∈ tree.entries.map Prod.fst := by
    rw [← places]
    exact List.mem_map_of_mem listed
  obtain ⟨other, listed', same⟩ := List.mem_map.mp kept
  exact proper.unsplit other listed' part (same ▸ inside)

/-! ### Looking a name up -/

/-- What is wrong with a path of a name, whatever stands there. -/
def refusal? (root : Path) (name : Text) : Option FileFault :=
  if (root.child name).spelling.contains '\x00' then some .nullCharacter
  else if pathLimit < Utf8.byteCount (root.child name).spelling then
    some (.tooLong (root.child name))
  else if nameLimit < Utf8.byteCount name then some (.tooLong (root.child name))
  else none

/-- The way to a name is the way to its directory, and one step more. The induction goes along the
parts of the path, for any directory that has been reached. -/
theorem follow_concat {reached parts : List Text}
    (folder : tree.follow root reached parts = .ok .directory) (same : path.anchor = root.anchor) :
    tree.follow path reached (parts ++ [name]) =
      if nameLimit < Utf8.byteCount name then .error (.tooLong path)
      else match tree.entry? ⟨path.anchor, ((parts ++ [name]).foldl (Path.step path.anchor)
          reached).reverse⟩ with
        | some entry => .ok entry
        | none => .error (.missing path) := by
  induction parts generalizing reached with
  | nil =>
    rw [follow] at folder
    simp only [List.nil_append, List.foldl_cons, List.foldl_nil]
    rw [follow]
    split at folder
    · rename_i entry here
      cases folder
      rw [← same] at here
      simp only [here]
      rfl
    · cases folder
  | cons part parts inductionHypothesis =>
    rw [follow] at folder
    rw [List.cons_append, follow, same]
    split at folder
    · cases folder
    · rename_i here
      split at folder
      · cases folder
      · rename_i short
        simp only [if_neg short]
        rw [inductionHypothesis folder, same]
        rfl
    · cases folder

/-- To look for a name in a directory is to look up its entry, unless the name itself is refused;
the directory has been reached already. -/
theorem look_child (folder : tree.look root = .ok .directory) (name : Text) :
    tree.look (root.child name) =
      match refusal? root name with
      | some fault => .error fault
      | none =>
        match tree.entry? (root.child name).collapse with
        | some entry => .ok entry
        | none => .error (.missing (root.child name)) := by
  have way : tree.follow root [] root.parts = .ok .directory := by
    rw [look] at folder
    split at folder
    · cases folder
    · split at folder
      · cases folder
      · exact folder
  have last : tree.follow (root.child name) [] (root.parts ++ [name]) = _ :=
    follow_concat way rfl
  rw [look, refusal?]
  split
  · rfl
  · split
    · rfl
    · rw [show (root.child name).parts = root.parts ++ [name] from rfl, last]
      split <;> rfl

/-- A name that is only missing is a good one, and its place is free. The search tests the name
first, and says that it is missing only where it finds nothing. -/
theorem free_of_missing (folder : tree.look root = .ok .directory) {missed : Path}
    (missing : tree.look (root.child name) = .error (.missing missed)) :
    refusal? root name = none ∧ tree.entry? (root.child name).collapse = none := by
  rw [look_child folder] at missing
  split at missing
  · rename_i fault refused
    cases missing
    rw [refusal?] at refused
    split at refused
    · cases refused
    · split at refused
      · cases refused
      · split at refused <;> cases refused
  · rename_i accepted
    split at missing
    · cases missing
    · rename_i vacant
      exact ⟨accepted, vacant⟩

/-! ### A new file -/

section New

variable (free : tree.entry? path.collapse = none)

include free

/-- What is put where nothing stands is added behind all other entries: no entry has this place,
so none is written over. -/
theorem put_new : (tree.put path new).entries = tree.entries ++ [(path.collapse, new)] := by
  rw [ entry?] at free
  split at free
  · cases free
  · rw [put, if_neg]
    intro present
    obtain ⟨kept, listed, same⟩ := List.any_eq_true.mp present
    exact List.find?_eq_none.mp (Option.map_eq_none_iff.mp free) kept listed same

/-- Only the place that was free has another entry afterwards. The new entry stands behind all
others, so each of them is found before it. -/
theorem entry?_put_new (place : Path) :
    Tree.entry? (tree.put path new) place =
      if place = path.collapse then some new else tree.entry? place := by
  have inner : ¬ (path.collapse.parts.all (· == ['.', '.'])) = true := by
    intro outer
    rw [ entry?, if_pos outer] at free
    cases free
  rw [ entry?, put_new free, List.find?_append]
  by_cases here : place = path.collapse
  · rw [if_pos here, here, if_neg inner]
    rw [ entry?, if_neg inner, Option.map_eq_none_iff] at free
    simp [free]
  · have elsewhere : (path.collapse == place) = false := by simpa using Ne.symm here
    rw [if_neg here, entry?]
    simp [elsewhere]

/-- A path that leads somewhere still leads there: on its way it passes entries that are there,
and the new one stands where none was. The induction goes along the way. -/
theorem follow_put_new {other : Path} {entry : Entry} {reached remaining : List Text}
    (found : tree.follow other reached remaining = .ok entry) :
    (tree.put path new).follow other reached remaining = .ok entry := by
  have stays {place : Path} {here : Entry} (stands : tree.entry? place = some here) :
      Tree.entry? (tree.put path new) place = some here := by
    rw [entry?_put_new free, if_neg, stands]
    rintro rfl
    rw [free] at stands
    cases stands
  induction remaining generalizing reached with
  | nil =>
    rw [follow] at found ⊢
    split at found
    · rename_i here stands
      rw [stays stands]
      exact found
    · cases found
  | cons part remaining inductionHypothesis =>
    rw [follow] at found ⊢
    split at found
    · cases found
    · rename_i stands
      rw [stays stands]
      simp only
      split at found
      · cases found
      · rename_i short
        rw [if_neg short]
        exact inductionHypothesis found
    · cases found

/-- What was found is still found after something was put where nothing stood: the ways to it lead
over other places. -/
theorem look_put_new {other : Path} {entry : Entry} (found : tree.look other = .ok entry) :
    (tree.put path new).look other = .ok entry := by
  rw [look] at found ⊢
  split at found
  · cases found
  · rename_i clean
    split at found
    · cases found
    · rename_i short
      rw [if_neg clean, if_neg short]
      exact follow_put_new free found

end New

/-- A new file is found under its name. -/
theorem look_put_missing (folder : tree.look root = .ok .directory) {missed : Path}
    (missing : tree.look (root.child name) = .error (.missing missed)) (new : Entry) :
    (tree.put (root.child name) new).look (root.child name) = .ok new := by
  obtain ⟨accepted, vacant⟩ := free_of_missing folder missing
  have folderNow : (tree.put (root.child name) new).look root = .ok .directory :=
    look_put_new vacant folder
  rw [look_child folderNow, accepted, entry?_put_new vacant, if_pos rfl]

/-- No name on the way to something has a slash in it: either the place consists of steps back, or
an entry stands there and its place is proper. -/
theorem Proper.unsplit_parts (proper : tree.Proper) (stands : tree.look path = .ok old) :
    ∀ part ∈ path.collapse.parts, '/' ∉ part := by
  have entry := look_eq_ok stands
  rw [ entry?] at entry
  split at entry
  · rename_i outer
    intro part inside
    rw [eq_of_beq (List.all_eq_true.mp outer part inside)]
    decide
  · obtain ⟨kept, found, _⟩ := Option.map_eq_some_iff.mp entry
    have place : kept.1 = path.collapse := by simpa using List.find?_some found
    rw [← place]
    exact proper.unsplit kept (List.mem_of_find?_eq_some found)

/-- A new name without slashes in a directory that is there keeps the tree proper. Its place is a
new one, so no two entries share it, and the directory above it stands. -/
theorem Proper.put_new (proper : tree.Proper) (folder : tree.look root = .ok .directory)
    (forwards : name ≠ ['.', '.']) (unsplit : '/' ∉ name)
    (free : tree.entry? (root.child name).collapse = none) :
    (tree.put (root.child name) new).Proper := by
  have entries : (tree.put (root.child name) new).entries = _ := Tree.put_new free
  constructor
  · rw [entries, List.map_append, List.nodup_append]
    refine ⟨proper.distinct, by simp, ?_⟩
    intro place listed other last same
    obtain ⟨entry, stands, rfl⟩ := List.mem_map.mp listed
    rw [ entry?] at free
    split at free
    · cases free
    · have absent := List.find?_eq_none.mp (Option.map_eq_none_iff.mp free) entry stands
      simp only [List.map_cons, List.map_nil, List.mem_singleton] at last
      rw [same, last] at absent
      simp at absent
  · intro entry listed part inside
    rw [entries, List.mem_append, List.mem_singleton] at listed
    rcases listed with old | rfl
    · exact proper.unsplit entry old part inside
    · rw [Path.collapse_child root forwards, Path.child, List.mem_append,
        List.mem_singleton] at inside
      rcases inside with inside | rfl
      · exact proper.unsplit_parts folder part inside
      · exact unsplit

end Tree

end SqlRenewal
