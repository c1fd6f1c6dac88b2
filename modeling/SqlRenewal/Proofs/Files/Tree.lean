import SqlRenewal.Files.Tree

/-!
# Writing over a file

A file that is written over changes at its own place and nowhere else. Every path
leads where it led before: a file was no step on the way to another place, and is none
afterwards.
-/
namespace SqlRenewal.Tree

variable {tree : Tree} {path : Path} {old new : Entry}

/-- The entry of a place, after the one at another place has been replaced. -/
def replaced (path : Path) (new : Entry) (place : Path) (entry : Entry) : Entry :=
  if place = path.collapse then new else entry

/-- What a path leads to stands at the place that it names: each step goes into the directory that
has been reached, or back from it, as the place does. The induction goes along the way. -/
theorem follow_eq_ok {entry : Entry} {reached remaining : List Text}
    (found : tree.follow path reached remaining = .ok entry) :
    tree.entry? ⟨path.anchor, (remaining.foldl (Path.step path.anchor) reached).reverse⟩ =
      some entry := by
  induction remaining generalizing reached with
  | nil =>
    rw [follow] at found
    split at found
    · rename_i other here
      cases found
      exact here
    · cases found
  | cons part remaining inductionHypothesis =>
    rw [follow] at found
    split at found
    · cases found
    · split at found
      · cases found
      · exact inductionHypothesis found
    · cases found

/-- What is found at a path is the entry at its place; the checks on the way only decide whether
it is found. -/
theorem look_eq_ok {entry : Entry} (found : tree.look path = .ok entry) :
    tree.entry? path.collapse = some entry := by
  rw [look] at found
  split at found
  · cases found
  · split at found
    · cases found
    · exact follow_eq_ok found

/-- Where a file stands, another one can be put in its place: it is the entry there afterwards,
and all others are as before. -/
theorem entry?_put (stands : tree.entry? path.collapse = some old) (file : old.isFile = true)
    (place : Path) :
    Tree.entry? (tree.put path new) place = ( tree.entry? place).map (replaced path new place) := by
  rw [ entry?] at stands
  split at stands
  · cases stands
    cases file
  · rename_i inner
    obtain ⟨kept, listed, same⟩ := Option.map_eq_some_iff.mp stands
    have named : (kept.1 == path.collapse) = true := by simpa using List.find?_some listed
    have present : tree.entries.any (·.1 == path.collapse) = true :=
      List.any_eq_true.mpr ⟨kept, List.mem_of_find?_eq_some listed, named⟩
    rw [put, if_pos present, entry?, entry?]
    split
    · rename_i outer
      have elsewhere : place ≠ path.collapse := by
        rintro rfl
        exact inner outer
      simp [replaced, elsewhere]
    · have names : ((fun entry : Path × Entry => entry.1 == place) ∘ fun other : Path × Entry =>
          if other.1 = path.collapse then (path.collapse, new) else other) =
          fun entry => entry.1 == place := by
        funext other
        simp only [Function.comp_apply]
        split
        · rename_i here
          rw [here]
        · rfl
      rw [List.find?_map, names, Option.map_map, Option.map_map]
      cases found : tree.entries.find? fun entry => entry.1 == place with
      | none => rfl
      | some other =>
        have named : other.1 = place := by simpa using List.find?_some found
        simp only [Option.map_some, Function.comp_apply, replaced, named]
        split <;> rfl

/-- No way leads through a file. A directory is the only entry with something under it, so another
part after a file is an error. -/
theorem follow_of_file {entry : Entry} {part : Text} {reached remaining : List Text}
    (stands : tree.entry? ⟨path.anchor, reached.reverse⟩ = some entry)
    (file : entry.isFile = true) :
    tree.follow path reached (part :: remaining) = .error (.notDirectory path) := by
  rw [follow, stands]
  cases entry with
  | directory => cases file
  | file bytes => rfl
  | database database => rfl

/-- Writing over a file leads no path astray, since a file is never on the way to anything else.
The induction goes along the way. -/
theorem follow_put (stands : tree.entry? path.collapse = some old) (file : old.isFile = true)
    (written : new.isFile = true) (other : Path) (reached remaining : List Text) :
    (tree.put path new).follow other reached remaining =
      (tree.follow other reached remaining).map
        (replaced path new
          ⟨other.anchor, (remaining.foldl (Path.step other.anchor) reached).reverse⟩) := by
  induction remaining generalizing reached with
  | nil =>
    rw [follow, follow, entry?_put stands file]
    cases tree.entry? ⟨other.anchor, reached.reverse⟩ <;> rfl
  | cons part remaining inductionHypothesis =>
    by_cases here : (⟨other.anchor, reached.reverse⟩ : Path) = path.collapse
    · have stood : tree.entry? ⟨other.anchor, reached.reverse⟩ = some old := by rw [here, stands]
      have stays : Tree.entry? (tree.put path new) ⟨other.anchor, reached.reverse⟩ = some new := by
        rw [entry?_put stands file, stood, Option.map_some, replaced, if_pos here]
      rw [follow_of_file stays written, follow_of_file stood file]
      rfl
    · rw [follow, follow, entry?_put stands file]
      cases tree.entry? ⟨other.anchor, reached.reverse⟩ with
      | none => rfl
      | some entry =>
        simp only [Option.map_some, replaced, here, if_false]
        cases entry with
        | directory =>
          simp only
          split
          · rfl
          · exact inductionHypothesis _
        | file bytes => rfl
        | database database => rfl

/-- After a file was put in the place of a file, the same paths are found as before: the only
other entry is the new file at its own place, and a file leads nowhere. -/
theorem look_put (found : tree.look path = .ok old) (file : old.isFile = true)
    (written : new.isFile = true) (other : Path) :
    (tree.put path new).look other = (tree.look other).map (replaced path new other.collapse) := by
  rw [look, look]
  split
  · rfl
  · split
    · rfl
    · exact follow_put (look_eq_ok found) file written other [] other.parts

/-- Whether something stands at a path does not depend on what a file contains. -/
theorem holds_put (found : tree.look path = .ok old) (file : old.isFile = true)
    (written : new.isFile = true) (other : Path) :
    (tree.put path new).holds other = tree.holds other := by
  rw [holds, holds, look_put found file written]
  cases tree.look other <;> rfl

/-- A place other than that of the file keeps its entry. -/
theorem look_put_of_ne (found : tree.look path = .ok old) (file : old.isFile = true)
    (written : new.isFile = true) {other : Path} (apart : other.collapse ≠ path.collapse) :
    (tree.put path new).look other = tree.look other := by
  rw [look_put found file written]
  cases tree.look other <;> simp [Except.map, replaced, apart]

/-- A file that takes the place of a file is found where that was. -/
theorem look_put_self (found : tree.look path = .ok old) (file : old.isFile = true)
    (written : new.isFile = true) : (tree.put path new).look path = .ok new := by
  rw [look_put found file written, found]
  simp [Except.map, replaced]

end SqlRenewal.Tree
