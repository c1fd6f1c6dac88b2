import SqlRenewal.Proofs.Store.Beside

/-!
# Stocking a folder

Routines are put into an empty folder one by one, each in a file of its qualified name. If
their names are portable, the folder is tidy in the end, and holds each of them with the
text that was written, as long as there is no carriage return in it.
-/
namespace SqlRenewal

/-- A routine that is put into a store. -/
structure Supply where
  identity : Identity
  text : Text
  kind : Option Text := none

/-- Every routine has a portable name of its own, and a text without carriage returns. -/
structure Assorted (supplies : List Supply) : Prop where
  distinct : (supplies.map Supply.identity).Nodup
  portable : ∀ supply ∈ supplies, supply.identity.Portable
  plain : ∀ supply ∈ supplies, '\r' ∉ supply.text

namespace Folder

variable {tree stocked : Tree} {root path : Path} {done supplies : List Supply} {supply : Supply}

/-- The files with those of more routines. -/
def stock (tree : Tree) (root : Path) : List Supply → Except FileFault Tree
  | [] => .ok tree
  | supply :: rest => do
    let written ← tree.writeText (fileNamed root supply.identity.qualified) supply.text
    stock written root rest

/-- The name of the file in which a routine is put. -/
def fileName (supply : Supply) : Text :=
  supply.identity.qualified ++ suffix

/-- The folder holds these routines, and nothing else that has the name of a definition. -/
structure Stocked (tree : Tree) (root : Path) (done : List Supply) : Prop where
  proper : tree.Proper
  folder : tree.look root = .ok .directory
  only : ∀ name entry, suffix <:+ name → tree.look (root.child name) = .ok entry →
    ∃ supply ∈ done, name = fileName supply
  holds : ∀ supply ∈ done,
    tree.look (root.child (fileName supply)) = .ok (.file (Utf8.encode supply.text))

/-- The files of a stock have the suffix of definitions. -/
theorem suffix_fileName (supply : Supply) : suffix <:+ fileName supply :=
  List.suffix_append _ _

/-- Portable names that have the same file are the same. -/
theorem eq_of_fileName {other : Supply} (portable : supply.identity.Portable)
    (portable' : other.identity.Portable) (same : fileName supply = fileName other) :
    supply.identity = other.identity :=
  eq_of_qualified portable.point portable'.point (List.append_cancel_right same)

/-! ### Putting a routine into the folder -/

/-- An empty folder has an empty stock: an entry under the name of a definition file would be
among the names of the folder. -/
theorem Stocked.ofEmpty (proper : tree.Proper) (folder : tree.look root = .ok .directory)
    (empty : tree.names root = []) : Stocked tree root [] := by
  refine ⟨proper, folder, ?_, by simp⟩
  intro name entry ends stands
  have listed := Tree.mem_names_of_entry? (ne_points_of_suffix ends) (Tree.look_eq_ok stands)
  rw [empty] at listed
  cases listed

/-- If the file of a routine can be written at all, it is a new one: a file that stood there would
be that of an earlier routine with the same name. -/
theorem Stocked.writeText_eq (known : Stocked tree root done)
    (portable : supply.identity.Portable) (portables : ∀ other ∈ done, other.identity.Portable)
    (new : ∀ other ∈ done, supply.identity ≠ other.identity)
    (wrote : tree.writeText (fileNamed root supply.identity.qualified) supply.text = .ok stocked) :
    (∃ missed, tree.look (root.child (fileName supply)) = .error (.missing missed)) ∧
      stocked = tree.put (root.child (fileName supply)) (.file (Utf8.encode supply.text)) := by
  rw [fileNamed_eq_child root portable.slash, Tree.writeText, Tree.write] at wrote
  split at wrote
  · cases wrote
  · rename_i entry _ stands
    -- Something stands there: then it is the file of an earlier routine.
    obtain ⟨other, member, same⟩ := known.only _ entry (suffix_fileName supply) stands
    exact absurd (eq_of_fileName portable (portables other member) same) (new other member)
  · rename_i missed missing
    refine ⟨⟨missed, missing⟩, ?_⟩
    rw [Tree.place] at wrote
    split at wrote
    · exact (Except.ok.inj wrote).symm
    · cases wrote
  · cases wrote

/-- One more routine is put into the folder, under a name of its own, so the files of all others
are listed and read as before. -/
theorem Stocked.add (known : Stocked tree root done) (portable : supply.identity.Portable)
    (portables : ∀ other ∈ done, other.identity.Portable)
    (new : ∀ other ∈ done, supply.identity ≠ other.identity)
    (wrote : tree.writeText (fileNamed root supply.identity.qualified) supply.text = .ok stocked) :
    Stocked stocked root (done ++ [supply]) := by
  obtain ⟨⟨missed, missing⟩, rfl⟩ := known.writeText_eq portable portables new wrote
  have ends := suffix_fileName supply
  have unsplit : '/' ∉ fileName supply := by
    rw [fileName, List.mem_append, not_or]
    exact ⟨portable.slash, by decide⟩
  have vacant := (Tree.free_of_missing known.folder missing).2
  have beside : Beside root (fileName supply) tree
      (tree.put (root.child (fileName supply)) (.file (Utf8.encode supply.text))) :=
    .ofNew known.folder ends missing rfl
  refine ⟨known.proper.put_new known.folder (ne_points_of_suffix ends) unsplit vacant,
    Tree.look_put_new vacant known.folder, ?_, ?_⟩
  · intro name entry ends' stands
    by_cases same : name = fileName supply
    · exact ⟨supply, by simp, same⟩
    · rw [beside.looks name ends' same] at stands
      obtain ⟨other, member, named⟩ := known.only name entry ends' stands
      exact ⟨other, List.mem_append_left _ member, named⟩
  · intro other member
    rcases List.mem_append.mp member with old | last
    · have distinct : fileName other ≠ fileName supply := by
        intro same
        exact new other old (eq_of_fileName portable (portables other old) same.symm)
      rw [beside.looks _ (suffix_fileName other) distinct]
      exact known.holds other old
    · obtain rfl := List.mem_singleton.mp last
      exact Tree.look_put_missing known.folder missing _

/-- All routines are put into the folder, one after the other. The induction is over those that
are still to come. -/
theorem Stocked.addAll (known : Stocked tree root done)
    (portables : ∀ supply ∈ done ++ supplies, supply.identity.Portable)
    (distinct : ((done ++ supplies).map Supply.identity).Nodup)
    (stocks : stock tree root supplies = .ok stocked) :
    Stocked stocked root (done ++ supplies) := by
  induction supplies generalizing tree done with
  | nil =>
    obtain rfl := Except.ok.inj stocks
    rwa [List.append_nil]
  | cons supply rest inductionHypothesis =>
    rw [stock] at stocks
    cases wrote : tree.writeText (fileNamed root supply.identity.qualified) supply.text with
    | error fault =>
      rw [wrote] at stocks
      cases stocks
    | ok written =>
      rw [wrote] at stocks
      have new : ∀ other ∈ done, supply.identity ≠ other.identity := by
        intro other member same
        rw [List.map_append, List.nodup_append] at distinct
        exact distinct.2.2 _ (List.mem_map_of_mem member) _
          (List.mem_map_of_mem List.mem_cons_self) same.symm
      have more := known.add (portables supply (by simp))
        (fun other member => portables other (List.mem_append_left _ member)) new wrote
      rw [List.append_cons] at portables distinct ⊢
      exact inductionHypothesis more portables distinct stocks

/-! ### The stocked folder -/

/-- The stem of a definition file is its name without the suffix. The name is broken at its last
point, and the suffix has none behind its first character. -/
theorem stem_child (root : Path) {text : Text} (named : text ≠ []) :
    (root.child (text ++ suffix)).stem = text := by
  have broken : Text.breakAt? '.' (text ++ suffix).reverse = some (['l', 'q', 's'], text.reverse) := by
    have point : '.' ∉ ['l', 'q', 's'] := by decide
    rw [List.reverse_append]
    exact breakAt?_append point text.reverse
  rw [Path.stem, Path.child_name, broken]
  simp [named]

/-- A portable identity is read off the name of its file. -/
theorem identityFor_fileName (portable : supply.identity.Portable) (root : Path) :
    identityFor (root.child (fileName supply)) = .ok supply.identity := by
  have named : supply.identity.qualified ≠ [] := by simp [Identity.qualified]
  rw [identityFor, fileName, stem_child root named, portable.parse_qualified]

/-- The routine that is read from the file of a supply. -/
def loaded (supply : Supply) : Routine :=
  ⟨supply.identity, kindOf supply.text, supply.text⟩

namespace Stocked

variable (known : Stocked tree root supplies) (assorted : Assorted supplies)

include known assorted

/-- The files of a stocked folder are those of its supplies, in some order. Neither side has one
of them twice, and both have the same ones. -/
theorem files_perm :
    (files tree root).Perm (supplies.map fun supply => root.child (fileName supply)) := by
  refine (List.perm_ext_iff_of_nodup (nodup_files known.proper) ?_).mpr ?_
  · refine assorted.distinct.of_map.map_on ?_
    intro first member second member' same
    refine List.inj_on_of_nodup_map assorted.distinct member member' ?_
    exact eq_of_fileName (assorted.portable first member) (assorted.portable second member')
      (Path.child_inj same)
  · intro path
    rw [mem_files, List.mem_map]
    constructor
    · rintro ⟨name, entry, rfl, ends, stands, _⟩
      obtain ⟨supply, member, rfl⟩ := known.only name entry ends stands
      exact ⟨supply, member, rfl⟩
    · rintro ⟨supply, member, rfl⟩
      exact ⟨_, _, rfl, suffix_fileName supply, known.holds supply member, rfl⟩

/-- Each file of a stock is loaded as its supply. Its name gives back the routine, decoding gives
back the text, and a text without carriage returns is read as it is. -/
theorem load_eq (member : supply ∈ supplies) :
    load tree (root.child (fileName supply)) = .ok (loaded supply) := by
  have named := identityFor_fileName (assorted.portable supply member) root
  refine load_eq_ok_iff.mpr ⟨?_, named, rfl⟩
  rw [Tree.readText, Tree.readBytes, known.holds supply member]
  simp only [Utf8.decode_encode]
  exact congrArg Except.ok (unifyLineBreaks_of_no_return (assorted.plain supply member))

/-- A stocked folder is legible, because all its files are loaded. -/
theorem legible : Legible tree root := by
  intro path listed
  obtain ⟨supply, member, rfl⟩ := List.mem_map.mp ((known.files_perm assorted).mem_iff.mp listed)
  obtain ⟨readable, named, _⟩ := load_eq_ok_iff.mp (known.load_eq assorted member)
  exact ⟨⟨_, readable⟩, _, named⟩

/-- All files have the names under which their routines are looked for: each of them is the file
of a supply, named after its routine. -/
theorem tidy : Tidy tree root := by
  intro path listed identity named
  obtain ⟨supply, member, rfl⟩ := List.mem_map.mp ((known.files_perm assorted).mem_iff.mp listed)
  have portable := assorted.portable supply member
  obtain rfl := Except.ok.inj ((identityFor_fileName portable root).symm.trans named)
  exact .inl (fileNamed_eq_child root portable.slash).symm

/-- The folder lists the routines that were put there. Its files are those of the supplies, each
of which is loaded as it was supplied. -/
theorem routines_eq : ∃ listed, routines tree root = .ok (sortRoutines listed) ∧
    listed.Perm (supplies.map loaded) := by
  obtain ⟨listed, listing, loads⟩ := (known.legible assorted).routines
  refine ⟨listed, listing, ?_⟩
  have each := (known.files_perm assorted).map (load tree)
  rw [loads.map_load, List.map_map] at each
  have results : supplies.map (load tree ∘ fun supply => root.child (fileName supply)) =
      (supplies.map loaded).map .ok := by
    rw [List.map_map]
    exact List.map_congr_left fun supply member => known.load_eq assorted member
  rw [results] at each
  exact (List.map_perm_map_iff fun _ _ => Except.ok.inj).mp each

end Stocked

end Folder

end SqlRenewal
