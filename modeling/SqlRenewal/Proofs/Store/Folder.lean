import Mathlib
import SqlRenewal.Store.Folder
import SqlRenewal.Proofs.Files.Tree
import SqlRenewal.Proofs.Text.Utf8

/-!
# Texts in a folder

A text that is written to a folder is read from there again, and every routine with
another file keeps its text.

A routine of the default schema may use the file of its plain name. A point in that name
divides schema and name for every reader of the file, so this is the file of another
routine. With plain names, no two routines have the same file.
-/
namespace SqlRenewal.Folder

variable {tree : Tree} {root : Path} {identity : Identity} {text new : Text}

/-- Both routines have the same file. -/
def Shares (tree : Tree) (root : Path) (first second : Identity) : Prop :=
  ∃ path other, pathFor tree root first = .ok path ∧ pathFor tree root second = .ok other ∧
    other.collapse = path.collapse

/-! ### Reading and writing -/

/-- A routine is located where it is looked for, with the answer whether a file stands there. -/
theorem locate_eq_ok_iff {path : Path} {present : Bool} :
    locate tree root identity = .ok (path, present) ↔
      pathFor tree root identity = .ok path ∧ tree.holds path = .ok present := by
  rw [locate]
  cases pathFor tree root identity with
  | error fault => simp [Except.mapError, bind, Except.bind]
  | ok place =>
    cases held : tree.holds place with
    | error fault =>
      simp only [Except.mapError, bind, Except.bind, held, Except.ok.injEq, false_iff, reduceCtorEq]
      rintro ⟨rfl, other⟩
      rw [held] at other
      cases other
    | ok holds =>
      simp only [Except.mapError, bind, Except.bind, held, pure, Except.pure, Except.ok.injEq,
        Prod.mk.injEq]
      constructor
      · rintro ⟨rfl, rfl⟩
        exact ⟨rfl, held⟩
      · rintro ⟨rfl, other⟩
        rw [held] at other
        exact ⟨rfl, Except.ok.inj other⟩

/-- A routine with a file is read from it. -/
theorem read_present {path : Path} (located : locate tree root identity = .ok (path, true)) :
    read tree root identity = (tree.readText path).mapError Failure.ofRead := by
  rw [read, located]
  rfl

/-- A routine without a file is not found. -/
theorem read_absent {path : Path} (located : locate tree root identity = .ok (path, false)) :
    read tree root identity = .error (.noRoutine identity) := by
  rw [read, located]
  rfl

/-- A routine that cannot be located cannot be read. -/
theorem read_unlocated {failure : Failure} (located : locate tree root identity = .error failure) :
    read tree root identity = .error failure := by
  rw [read, located]
  rfl

/-- What is read from a file has no carriage returns, and it stands in no directory. -/
theorem readText_eq_ok {path : Path} (readable : tree.readText path = .ok text) :
    (∃ entry, tree.look path = .ok entry ∧ entry.isFile = true) ∧ '\r' ∉ text := by
  rw [Tree.readText] at readable
  split at readable
  · cases readable
  · rename_i bytes contents
    split at readable
    · cases readable
    · cases readable
      refine ⟨?_, no_return_unifyLineBreaks _⟩
      rw [Tree.readBytes] at contents
      cases stands : tree.look path with
      | error fault => simp [stands] at contents
      | ok entry =>
        cases entry with
        | directory => simp [stands] at contents
        | file bytes => exact ⟨_, rfl, rfl⟩
        | database database => exact ⟨_, rfl, rfl⟩

/-- A text that can be read stands in a file, at the path where the routine is looked for. Every
other case of the reading is a failure. -/
theorem read_eq_ok (readable : read tree root identity = .ok text) :
    ∃ path entry, pathFor tree root identity = .ok path ∧ tree.look path = .ok entry ∧
      entry.isFile = true ∧ '\r' ∉ text := by
  cases located : locate tree root identity with
  | error failure =>
    rw [read_unlocated located] at readable
    cases readable
  | ok place =>
    obtain ⟨path, present⟩ := place
    cases present with
    | false =>
      rw [read_absent located] at readable
      cases readable
    | true =>
      rw [read_present located] at readable
      cases decoded : tree.readText path with
      | error fault =>
        rw [decoded] at readable
        cases readable
      | ok found =>
        rw [decoded] at readable
        obtain ⟨⟨entry, stands, file⟩, unreturned⟩ := readText_eq_ok decoded
        exact ⟨path, entry, (locate_eq_ok_iff.mp located).1, stands, file,
          Except.ok.inj readable ▸ unreturned⟩

/-- A routine is located where a file stands that is looked for. -/
theorem locate_eq_present {path : Path} {entry : Entry}
    (found : pathFor tree root identity = .ok path) (stands : tree.look path = .ok entry) :
    locate tree root identity = .ok (path, true) :=
  locate_eq_ok_iff.mpr ⟨found, by rw [Tree.holds, stands]⟩

section Written

variable {path : Path} {old : Entry} (stands : tree.look path = .ok old)
  (file : old.isFile = true)

include stands file

/-- The file of a routine that is there is written over, whatever its bytes were. No directory has
to be made for it. -/
theorem write_eq_ok (found : pathFor tree root identity = .ok path) (new : Text) :
    write tree root identity new = .ok (tree.put path (.file (Utf8.encode new))) := by
  rw [write, locate_eq_present found stands]
  simp only [bind, Except.bind, if_true, Tree.writeText, Tree.write, stands]
  cases old with
  | directory => cases file
  | file bytes => rfl
  | database database => rfl

variable {bytes : List UInt8}

/-- No routine changes its file. -/
theorem locate_put (other : Identity) :
    locate (tree.put path (.file bytes)) root other = locate tree root other := by
  have written : (Entry.file bytes).isFile = true := rfl
  simp only [locate, pathFor, Tree.holds_put stands file written]

/-- A text that was written is read again, up to its line breaks. The new file is found under the
same path, and decoding undoes encoding. -/
theorem read_put_self (found : pathFor tree root identity = .ok path) (new : Text) :
    read (tree.put path (.file (Utf8.encode new))) root identity = .ok (unifyLineBreaks new) := by
  have look : (tree.put path (.file (Utf8.encode new))).look path = .ok (.file (Utf8.encode new)) :=
    Tree.look_put_self stands file rfl
  have located := locate_eq_present found stands
  rw [← locate_put stands file identity] at located
  rw [read_present located, Tree.readText, Tree.readBytes, look]
  simp only [Utf8.decode_encode]
  rfl

/-- A routine keeps its text if its file is another one. Which file is its own does not change,
and that file is found and read as before. -/
theorem read_put_of_ne {other : Identity}
    (elsewhere : ∀ place, pathFor tree root other = .ok place → place.collapse ≠ path.collapse) :
    read (tree.put path (.file bytes)) root other = read tree root other := by
  have same : locate (tree.put path (.file bytes)) root other = locate tree root other :=
    locate_put stands file other
  cases located : locate tree root other with
  | error failure => rw [read_unlocated located, read_unlocated (same.trans located)]
  | ok place =>
    obtain ⟨place, present⟩ := place
    cases present with
    | false => rw [read_absent located, read_absent (same.trans located)]
    | true =>
      rw [read_present located, read_present (same.trans located), Tree.readText, Tree.readBytes,
        Tree.look_put_of_ne stands file rfl (elsewhere place (locate_eq_ok_iff.mp located).1)]
      rfl

/-- A routine with another file keeps its text. -/
theorem read_put_of_not_shares (found : pathFor tree root identity = .ok path) {other : Identity}
    (apart : ¬ Shares tree root identity other) :
    read (tree.put path (.file bytes)) root other = read tree root other := by
  refine read_put_of_ne stands file ?_
  intro place found' shared
  exact apart ⟨path, place, found, found', shared⟩

end Written

/-! ### Plain names -/

/-- A text without a separator is one piece, by induction over its characters. -/
theorem splitAt_of_not_mem {separator : Char} (absent : separator ∉ text) :
    Text.splitAt separator text = [text] := by
  induction text with
  | nil => rfl
  | cons c rest inductionHypothesis =>
    simp only [List.mem_cons, not_or] at absent
    rw [Text.splitAt, if_neg (Ne.symm absent.1), inductionHypothesis absent.2]

/-- A text is broken at its first separator. The part before it has none, so the induction goes
over that part. -/
theorem breakAt?_append {separator : Char} {before : Text} (absent : separator ∉ before)
    (after : Text) : Text.breakAt? separator (before ++ separator :: after) = some (before, after) := by
  induction before with
  | nil => simp [Text.breakAt?]
  | cons c rest inductionHypothesis =>
    simp only [List.mem_cons, not_or] at absent
    rw [List.cons_append, Text.breakAt?, if_neg (Ne.symm absent.1), inductionHypothesis absent.2]
    rfl

/-- A text without slashes does not begin with any. The names of routines that are written as
single file names are such texts. -/
theorem takeWhile_isSlash_eq_nil (absent : '/' ∉ text) : text.takeWhile Path.isSlash = [] := by
  cases text with
  | nil => rfl
  | cons c rest =>
    simp only [List.mem_cons, not_or] at absent
    rw [List.takeWhile_cons_of_neg]
    simpa [Path.isSlash] using Ne.symm absent.1

/-- The file of a name without slashes lies in the folder itself: the name is one step of the
path, and longer than one of dots because of its suffix. -/
theorem fileNamed_eq (root : Path) {name : Text} (unsplit : '/' ∉ name) :
    fileNamed root name = { root with parts := root.parts ++ [name ++ suffix] } := by
  have whole : '/' ∉ name ++ suffix := by
    rw [List.mem_append, not_or]
    exact ⟨unsplit, by decide⟩
  have anchor := takeWhile_isSlash_eq_nil whole
  have longer : 4 ≤ (name ++ suffix).length := by simp [suffix]
  have kept : name ++ suffix ≠ [] ∧ name ++ suffix ≠ ['.'] := by
    constructor
    · intro same
      simp [same] at longer
    · intro same
      simp [same] at longer
  simp [fileNamed, Path.below, Path.ofText, anchor, Path.anchorOf, splitAt_of_not_mem whole, kept]

/-- Different names without slashes have different places. Both paths lead through the same
folder, and their last steps are the names with the suffix. -/
theorem fileNamed_inj {first second : Text} (unsplit : '/' ∉ first) (unsplit' : '/' ∉ second)
    (same : (fileNamed root first).collapse = (fileNamed root second).collapse) :
    first = second := by
  have place {name : Text} (unsplit : '/' ∉ name) : (fileNamed root name).collapse.parts =
      (root.parts.foldl (Path.step root.anchor) []).reverse ++ [name ++ suffix] := by
    have longer : 4 ≤ (name ++ suffix).length := by simp [suffix]
    have forwards : name ++ suffix ≠ ['.', '.'] := by
      intro same
      simp [same] at longer
    simp [fileNamed_eq root unsplit, Path.collapse, Path.step, forwards]
  have parts := congrArg Path.parts same
  rw [place unsplit, place unsplit'] at parts
  simpa using parts

/-- Nothing in the name of a routine can be taken for anything else. -/
structure Plain (identity : Identity) : Prop where
  unsplit : '/' ∉ identity.qualified
  schema : '.' ∉ identity.schema
  name : identity.schema = defaultSchema → '.' ∉ identity.name

/-- The file of a routine has its qualified name, or in the default schema its plain one. The
plain one counts only where it is there and the qualified one is not. -/
theorem pathFor_cases {path : Path} (found : pathFor tree root identity = .ok path) :
    path = fileNamed root identity.qualified ∨
      identity.schema = defaultSchema ∧ path = fileNamed root identity.name := by
  rw [pathFor] at found
  cases qualified : tree.holds (fileNamed root identity.qualified) with
  | error fault =>
    rw [qualified] at found
    cases found
  | ok present =>
    simp only [qualified, bind, Except.bind] at found
    split at found
    · cases found
      exact .inl rfl
    · rename_i fallback
      simp only [Bool.or_eq_true, decide_eq_true_eq, not_or, Decidable.not_not] at fallback
      cases held : tree.holds (fileNamed root identity.name) with
      | error fault =>
        rw [held] at found
        cases found
      | ok plain =>
        rw [held] at found
        cases plain with
        | false =>
          cases found
          exact .inl rfl
        | true =>
          cases found
          exact .inr ⟨fallback.2, rfl⟩

/-- Identities with plain schemas are equal if their qualified names are: the first dot of a name
is the one behind the schema. -/
theorem eq_of_qualified {first second : Identity} (plain : '.' ∉ first.schema)
    (plain' : '.' ∉ second.schema) (same : first.qualified = second.qualified) : first = second := by
  have halves : some (first.schema, first.name) = some (second.schema, second.name) := by
    rw [← breakAt?_append plain, ← breakAt?_append plain']
    exact congrArg (Text.breakAt? '.') same
  cases first
  cases second
  simpa using halves

/-- A qualified name without slashes has none in the name of the routine. -/
theorem not_mem_name (plain : '/' ∉ identity.qualified) : '/' ∉ identity.name := by
  intro member
  exact plain (List.mem_append_right _ (List.mem_cons_of_mem _ member))

/-- A point divides a name, so no plain name of the default schema is a qualified one. -/
theorem name_ne_qualified {other : Identity} (plain : '.' ∉ identity.name) :
    identity.name ≠ other.qualified := by
  intro same
  rw [same] at plain
  exact plain (by simp [Identity.qualified])

/-- With plain names, only one routine has a file. A file has a qualified name or one without a
point, and each of the two belongs to one routine. -/
theorem Plain.not_shares {first second : Identity} (plain : Plain first) (plain' : Plain second)
    (distinct : second ≠ first) : ¬ Shares tree root first second := by
  rintro ⟨path, other, found, found', same⟩
  have names := not_mem_name plain.unsplit
  have names' := not_mem_name plain'.unsplit
  obtain rfl | ⟨standard, rfl⟩ := pathFor_cases found
  · obtain rfl | ⟨standard', rfl⟩ := pathFor_cases found'
    · have equal := fileNamed_inj plain'.unsplit plain.unsplit same
      exact distinct (eq_of_qualified plain'.schema plain.schema equal)
    · exact name_ne_qualified (plain'.name standard') (fileNamed_inj names' plain.unsplit same)
  · obtain rfl | ⟨standard', rfl⟩ := pathFor_cases found'
    · exact name_ne_qualified (plain.name standard) (fileNamed_inj plain'.unsplit names same).symm
    · have equal := fileNamed_inj names' names same
      cases first
      cases second
      simp_all

end SqlRenewal.Folder
