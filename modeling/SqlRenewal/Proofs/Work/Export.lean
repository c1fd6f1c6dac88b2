import SqlRenewal.Proofs.Files.Writing
import SqlRenewal.Proofs.Json.Arrangement
import SqlRenewal.Proofs.Json.ReadBack
import SqlRenewal.Proofs.Text.Utf8
import SqlRenewal.Proofs.Store.Folder
import SqlRenewal.Proofs.Work.Perform
import SqlRenewal.Work.Cleanup

/-!
# Saved lines

Values are saved one to a line. The file has exactly one line break for each of them:
cut at its line breaks, it gives lines from which the values are read back in their
order, objects as the same maps.

If one of the values cannot be written, nothing is: it is refused before the file is
touched. An integer may not fit, and a value may be nested too deep.
-/
namespace SqlRenewal

/-! ### Lines -/

namespace Text

variable {separator : Char}

/-- The first separator ends the first part. The line before it has none, so the induction goes
over the line. -/
theorem splitAt_line {line : Text} (absent : separator ∉ line) (rest : Text) :
    splitAt separator (line ++ separator :: rest) = line :: splitAt separator rest := by
  induction line with
  | nil => rw [List.nil_append, splitAt, if_pos rfl]
  | cons c line inductionHypothesis =>
    simp only [List.mem_cons, not_or] at absent
    rw [List.cons_append, splitAt, if_neg (Ne.symm absent.1), inductionHypothesis absent.2]

variable {lines : List Text} (absent : ∀ line ∈ lines, separator ∉ line)

include absent

/-- Lines are cut apart where they end, and an empty part follows the last end. -/
theorem splitAt_lines :
    splitAt separator (lines.flatMap (· ++ [separator])) = lines ++ [[]] := by
  induction lines with
  | nil => rfl
  | cons line lines inductionHypothesis =>
    rw [List.forall_mem_cons] at absent
    rw [List.flatMap_cons, List.append_assoc, List.singleton_append, splitAt_line absent.1,
      inductionHypothesis absent.2, List.cons_append]

/-- Lines with a separator behind each of them have as many separators as there are lines. -/
theorem count_lines : (lines.flatMap (· ++ [separator])).count separator = lines.length := by
  induction lines with
  | nil => rfl
  | cons line lines inductionHypothesis =>
    rw [List.forall_mem_cons] at absent
    rw [List.flatMap_cons, List.append_assoc, List.singleton_append, List.count_append,
      List.count_eq_zero_of_not_mem absent.1, List.count_cons_self, inductionHypothesis absent.2,
      List.length_cons, Nat.zero_add]

end Text

namespace Json

/-- The line can be read, as a value that is the same. -/
def ReadsAs (line : Text) (value : Json) : Prop :=
  ∃ read, ofText? line = some read ∧ value.Same read

/-- The values can be read back from the lines of a text. Behind the last line break
nothing is left. -/
structure ReadsBack (written : Text) (values : List Json) : Prop where
  breaks : written.count '\n' = values.length
  lines : ∃ lines, Text.splitAt '\n' written = lines ++ [[]] ∧ List.Forall₂ ReadsAs lines values

/-- A written value is read as one that is the same. -/
theorem readsAs_compact (value : Json) : ReadsAs (compact value.arrange) value :=
  ⟨value.arrange, ofText?_compact _, same_arrange value⟩

/-- Written lines are read back, one value to a line: no value contains a line break, so the text
is cut where the lines were joined. -/
theorem readsBack_lines {values : List Json} {written : Text} (saved : lines values = .ok written) :
    ReadsBack written values := by
  have unbroken : ∀ line ∈ values.map fun value => compact value.arrange, '\n' ∉ line := by
    rw [List.forall_mem_map]
    exact fun value _ => newline_not_mem_compact value.arrange
  have joined : written = (values.map fun value => compact value.arrange).flatMap (· ++ ['\n']) := by
    rw [(lines_eq_ok_iff.mp saved).2, List.flatMap_map, List.flatMap_map]
  rw [joined]
  constructor
  · rw [Text.count_lines unbroken, List.length_map]
  · refine ⟨_, Text.splitAt_lines unbroken, ?_⟩
    rw [List.forall₂_map_left_iff, List.forall₂_same]
    exact fun value _ => readsAs_compact value

end Json

/-! ### Files with lines -/

/-- The file at a path holds values, one to a line. -/
def Tree.HoldsLines (tree : Tree) (path : Path) (values : List Json) : Prop :=
  ∃ written, tree.readBytes path = .ok (Utf8.encode written) ∧ Json.ReadsBack written values

/-- Directories are made first; then all values are written, or none. A value that cannot be
written is found before the file is touched. -/
theorem perform_saveLines (values : List Json) (path : Path) (desk : Desk) :
    (saveLines values path).perform desk =
      match desk.files.makeDirectories path.directory with
      | (made, .error fault) => (.error (.file fault), { desk with files := made })
      | (made, .ok _) =>
        match Json.lines values with
        | .error fault => (.error (.unwritable fault), { desk with files := made })
        | .ok written =>
          match made.writeText path written with
          | .error fault => (.error (.file fault), { desk with files := made })
          | .ok files => (.ok (), { desk with files }) := by
  rw [saveLines, Action.perform_bind_ok (Action.perform_get desk)]
  cases desk.files.makeDirectories path.directory with
  | mk made outcome =>
    simp only
    rw [Action.perform_bind_ok (Action.perform_modify _ desk)]
    cases outcome with
    | error fault => rfl
    | ok nothing =>
      cases Json.lines values with
      | error fault => rfl
      | ok written =>
        simp only [orFail, Except.mapError, pure_bind]
        cases made.writeText path written <;> rfl

/-- Saving touches no file but the one at its path. Directories may be made above that
one, but no place that held a file before is affected by them. -/
theorem fileAt_saveLines (values : List Json) {path place : Path} (apart : place ≠ path.collapse)
    (desk : Desk) :
    ((saveLines values path).perform desk).2.files.fileAt place = desk.files.fileAt place := by
  have kept := Tree.fileAt_makeDirectories desk.files path.directory place
  rw [perform_saveLines]
  split
  · rename_i made fault making
    rwa [making] at kept
  · rename_i made nothing making
    rw [making] at kept
    split
    · exact kept
    · split
      · exact kept
      · rename_i written saved files stored
        obtain ⟨rfl, _⟩ := Tree.write_eq_ok stored
        exact (Tree.fileAt_put_of_ne apart).trans kept

/-- Saving either fails, with directories made at most, or the file holds the values. The cases
are the steps: directories, lines, and the file. -/
theorem perform_saveLines_cases (values : List Json) (path : Path) (desk : Desk) :
    (∃ failure files, (saveLines values path).perform desk =
      (.error failure, { desk with files })) ∨
    ∃ files, (saveLines values path).perform desk = (.ok (), { desk with files }) ∧
      files.HoldsLines path values := by
  rw [perform_saveLines]
  split
  · exact .inl ⟨_, _, rfl⟩
  · split
    · exact .inl ⟨_, _, rfl⟩
    · rename_i written saved
      split
      · exact .inl ⟨_, _, rfl⟩
      · rename_i files stored
        exact .inr ⟨files, rfl, written, Tree.readBytes_write stored, Json.readsBack_lines saved⟩

section Saving

variable {values : List Json} {path : Path} {desk : Desk} {made : Tree}

/-- Values that can be written are, to a file that takes them. The directories above are made
first, and what is then read from the file are these values again. -/
theorem perform_saveLines_ok (above : desk.files.makeDirectories path.directory = (made, .ok ()))
    (writable : ∀ value ∈ values, value.Writable) (takes : made.takes path = true) :
    ∃ written, (saveLines values path).perform desk =
        (.ok (), { desk with files := made.put path (.file (Utf8.encode written)) }) ∧
      Tree.HoldsLines (made.put path (.file (Utf8.encode written))) path values := by
  have saved := Json.lines_eq_ok_iff.mpr ⟨writable, rfl⟩
  have put := Tree.write_of_takes takes
  refine ⟨_, ?_, _, Tree.readBytes_write (put _), Json.readsBack_lines saved⟩
  simp only [perform_saveLines, above, saved, Tree.writeText, put]

/-- A single value that cannot be written refuses all of them, before the file is touched. -/
theorem perform_saveLines_unwritable
    (above : desk.files.makeDirectories path.directory = (made, .ok ())) {value : Json}
    (member : value ∈ values) (unwritable : ¬ value.Writable) :
    ∃ fault, (saveLines values path).perform desk =
      (.error (.unwritable fault), { desk with files := made }) := by
  obtain ⟨fault, refused⟩ := Json.lines_eq_error member unwritable
  refine ⟨fault, ?_⟩
  simp only [perform_saveLines, above, refused]

end Saving

/-- Once the directories above a path are there, values are saved at it exactly as they
can be written. If all of them can, and a file can be written at the path, they can be
read back from its lines; nothing else changes. If one of them cannot, because an
integer in it does not fit or because it is nested too deep, all are refused, and
whatever stands at the path, or anywhere else, stays as it is. -/
theorem saveLines_readBack (values : List Json) (path : Path) (desk : Desk) {made : Tree}
    (above : desk.files.makeDirectories path.directory = (made, .ok ())) :
    ((∀ value ∈ values, value.Writable) → made.takes path = true →
      ∃ files, (saveLines values path).perform desk = (.ok (), { desk with files }) ∧
        files.HoldsLines path values ∧
        ∀ place, place ≠ path.collapse → files.fileAt place = desk.files.fileAt place) ∧
    ((∃ value ∈ values, ¬ value.Writable) →
      ∃ failure, (saveLines values path).perform desk =
          (.error failure, { desk with files := made }) ∧
        failure.kind = "TypeError" ∧
        (∀ place, made.fileAt place = desk.files.fileAt place) ∧
        ∀ other entry, desk.files.look other = .ok entry → made.look other = .ok entry) := by
  have kept (place : Path) : made.fileAt place = desk.files.fileAt place := by
    have same := Tree.fileAt_makeDirectories desk.files path.directory place
    rwa [above] at same
  constructor
  · intro writable takes
    obtain ⟨written, performed, holds⟩ := perform_saveLines_ok above writable takes
    refine ⟨_, performed, holds, fun place apart => ?_⟩
    rw [Tree.fileAt_put_of_ne apart, kept]
  · rintro ⟨value, member, unwritable⟩
    obtain ⟨fault, performed⟩ := perform_saveLines_unwritable above member unwritable
    refine ⟨_, performed, rfl, kept, fun other entry found => ?_⟩
    have stays := Tree.look_makeDirectories path.directory found
    rwa [above] at stays

/-- A record with a control character in it is saved into a new directory, and one with
an integer that is too large is not. -/
theorem saveLines_readBack_new_directory :
    let desk : Desk := { shelf := .nowhere }
    let path : Path := .ofString "out/rows.jsonl"
    let good : List Json := [.fieldsOf [("b", .list [.int (-5), .null]), ("a", .string "x\ny")]]
    let bad : List Json := [.fieldsOf [("n", .list [.int 18446744073709551616])]]
    (∃ files, (saveLines good path).perform desk = (.ok (), { desk with files }) ∧
      files.HoldsLines path good) ∧
    ∃ failure made, (saveLines bad path).perform desk =
        (.error failure, { desk with files := made }) ∧
      failure.kind = "TypeError" := by
  intro desk path good bad
  have above : desk.files.makeDirectories path.directory =
      (⟨[(.ofString "out", .directory)]⟩, .ok ()) := by decide +kernel
  obtain ⟨files, performed, holds, _⟩ := (saveLines_readBack good path desk above).1 (by decide)
    (by decide +kernel)
  obtain ⟨failure, refused, kind, _⟩ := (saveLines_readBack bad path desk above).2
    ⟨_, List.mem_cons_self, by decide⟩
  exact ⟨⟨files, performed, holds⟩, failure, _, refused, kind⟩

/-! ### Limits -/

/-- Lists inside each other, with nothing in the innermost one. -/
def Json.nested : Nat → Json
  | 0 => .list []
  | levels + 1 => .list [Json.nested levels]

/-- Nested lists are as deep as they are nested. -/
theorem Json.depth_nested (levels : Nat) : (Json.nested levels).depth = levels + 1 := by
  induction levels with
  | zero => rfl
  | succ levels inductionHypothesis =>
    rw [Json.nested, Json.depth, Json.depthOfAll, Json.depthOfAll, inductionHypothesis, Nat.max_zero]

/-- Nested lists have no integers in them, at any depth, so the length of integers is no reason to
refuse them. -/
theorem Json.integers_nested (levels : Nat) : (Json.nested levels).integers = [] := by
  induction levels with
  | zero => rfl
  | succ levels inductionHypothesis =>
    rw [Json.nested, Json.integers, Json.integersOfAll, inductionHypothesis]
    rfl

/-- A record without any integers is refused when it is nested too deep. An integer that
does not fit goes unnoticed when the directories above the path cannot be made, because
the name of one of them is too long. -/
theorem saveLines_limits :
    let desk : Desk := { shelf := .nowhere }
    let deep : Json := .fieldsOf [("a", Json.nested 253)]
    let large : Json := .fieldsOf [("a", .int 18446744073709551616)]
    let long : Path := .ofText (List.replicate 256 'a' ++ ['/', 'b'])
    (∃ failure after, (saveLines [deep] (.ofString "rows.jsonl")).perform desk =
        (.error failure, after) ∧
      deep.integers = [] ∧ failure.kind = "TypeError") ∧
    ∃ failure after, (saveLines [large] long).perform desk = (.error failure, after) ∧
      failure.kind = "OSError" := by
  intro desk deep large long
  constructor
  · have unwritable : ¬ deep.Writable := by
      rintro ⟨shallow, _⟩
      simp only [deep, Json.fieldsOf, List.map_cons, List.map_nil, Json.depth, Json.depthOfFields,
        Json.depth_nested, Json.depthLimit] at shallow
      omega
    obtain ⟨fault, performed⟩ : ∃ fault, (saveLines [deep] (.ofString "rows.jsonl")).perform desk =
        (.error (.unwritable fault), desk) :=
      perform_saveLines_unwritable rfl List.mem_cons_self unwritable
    refine ⟨_, _, performed, ?_, rfl⟩
    simp only [deep, Json.fieldsOf, List.map_cons, List.map_nil, Json.integers,
      Json.integersOfFields, Json.integers_nested, List.append_nil]
  · have stuck : desk.files.makeDirectories long.directory =
        ({}, .error (.tooLong long.directory)) := by decide +kernel
    refine ⟨.file (.tooLong long.directory), desk, ?_, rfl⟩
    simp only [perform_saveLines, stuck]
    rfl

end SqlRenewal
