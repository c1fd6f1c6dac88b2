import SqlRenewal.Proofs.Store.Folder
import SqlRenewal.Proofs.Work.Holding

/-!
# Texts on any shelf

Whether definitions are kept in a table or in a folder, a text that was read can be
written over unless this is denied. The new text is then stored, and is read again if it
brings no carriage returns with it. Routines that share nothing with the one that was
written keep their texts.
-/
namespace SqlRenewal

/-- What is read as the text of a routine. -/
def Desk.read (desk : Desk) (identity : Identity) : Except Failure Text :=
  match desk.shelf with
  | .table none => .error .storage
  | .table (some catalog) =>
    match (catalog.routine? identity).map Routine.text with
    | some text => .ok text
    | none => .error (.noRoutine identity)
  | .folder root => Folder.read desk.files root identity
  | .nowhere => .error (.noStoreFor identity)

/-- The text stands in the table or, as bytes, in the file of the routine. -/
def Desk.Stores (desk : Desk) (identity : Identity) (text : Text) : Prop :=
  match desk.shelf with
  | .table (some catalog) => (catalog.routine? identity).map Routine.text = some text
  | .folder root => ∃ path, Folder.pathFor desk.files root identity = .ok path ∧
      desk.files.look path = .ok (.file (Utf8.encode text))
  | _ => False

/-- What is written for one routine is written for the other: they are the same, or have
the same file. -/
def Desk.Shares (desk : Desk) (identity other : Identity) : Prop :=
  match desk.shelf with
  | .folder root => Folder.Shares desk.files root identity other
  | _ => other = identity

/-- With plain names, a routine shares nothing with others. -/
theorem Desk.not_shares (desk : Desk) {identity other : Identity} (plain : Folder.Plain identity)
    (plain' : Folder.Plain other) (distinct : other ≠ identity) : ¬ desk.Shares identity other := by
  rw [Desk.Shares]
  split
  · exact plain.not_shares plain' distinct
  · exact distinct

/-! ### Reading -/

/-- Reading changes nothing, and answers what stands at the desk. The cases are the kinds of
shelves. -/
theorem perform_readRoutine (identity : Identity) (desk : Desk) :
    (readRoutine identity).perform desk = (desk.read identity, desk) := by
  rw [readRoutine, Action.perform_bind_ok (Action.perform_get desk), Desk.read]
  cases desk.shelf with
  | table table =>
    cases table with
    | none => rfl
    | some catalog => cases found : catalog.routine? identity <;> simp [found]
  | folder root =>
    simp only [Action.perform_bind_ok (Action.perform_get desk)]
    cases Folder.read desk.files root identity <;> rfl
  | nowhere => rfl

/-- The text of a routine depends on the shelf and on the files only. -/
theorem Desk.read_congr {desk other : Desk} (shelf : other.shelf = desk.shelf)
    (files : other.files = desk.files) (identity : Identity) :
    other.read identity = desk.read identity := by
  rw [Desk.read, Desk.read, shelf, files]

/-! ### Writing -/

/-- The text of a routine has been replaced, and nothing else. -/
structure Desk.Rewrites (desk after : Desk) (identity : Identity) (text new : Text) : Prop where
  stores : after.Stores identity new
  reads : ('\r' ∈ new → '\r' ∈ text) → after.read identity = .ok new
  others : ∀ other, ¬ desk.Shares identity other → after.read other = desk.read other
  rest : after = { desk with shelf := after.shelf, files := after.files }

variable {desk : Desk} {identity : Identity} {text : Text}

/-- To write a text leaves the ledger alone. -/
theorem Desk.Rewrites.ledger_eq {after : Desk} {new : Text}
    (rewrites : desk.Rewrites after identity text new) : after.ledger = desk.ledger := by
  rw [rewrites.rest]

/-- A text that cannot be written is not, and nothing happens. -/
theorem perform_writeRoutine_denied (denied : desk.outage.commits.contains identity.name = true)
    (new : Text) :
    (writeRoutine identity new).perform desk = (.error (.commit identity .denied), desk) := by
  rw [writeRoutine, Action.perform_bind_ok (Action.perform_get desk), if_pos denied]
  rfl

/-- In a table the text of a routine is replaced in its row, and routines of other names have rows
of their own. -/
theorem rewrites_table {catalog : Catalog} {routine : Routine}
    (shelf : desk.shelf = .table (some catalog)) (found : catalog.routine? identity = some routine)
    (new : Text) :
    desk.Rewrites { desk with shelf := .table (some (catalog.setText identity new)) } identity text
      new := by
  have texts (other : Identity) := Catalog.text_setText catalog identity other new
  have stored : ((catalog.setText identity new).routine? identity).map Routine.text = some new := by
    rw [texts, if_pos rfl, found, Option.map_some]
  refine ⟨stored, ?_, ?_, rfl⟩
  · intro _
    simp only [Desk.read, stored]
  · intro other apart
    have distinct : other ≠ identity := by simpa [Desk.Shares, shelf] using apart
    simp only [Desk.read, shelf, texts, if_neg distinct]

/-- In a folder the text of a routine is replaced in its file, and with it that of every routine
which shares the file. -/
theorem rewrites_folder {root path : Path} {entry : Entry} (shelf : desk.shelf = .folder root)
    (found : Folder.pathFor desk.files root identity = .ok path)
    (stands : desk.files.look path = .ok entry) (file : entry.isFile = true)
    (unreturned : '\r' ∉ text) (new : Text) :
    desk.Rewrites { desk with files := desk.files.put path (.file (Utf8.encode new)) } identity text
      new := by
  refine ⟨?_, ?_, ?_, rfl⟩
  · rw [Desk.Stores]
    simp only [shelf]
    refine ⟨path, ?_, Tree.look_put_self stands file rfl⟩
    have located := Folder.locate_eq_present found stands
    rw [← Folder.locate_put stands file] at located
    exact (Folder.locate_eq_ok_iff.mp located).1
  · intro sparing
    have none : '\r' ∉ new := fun returns => unreturned (sparing returns)
    simp only [Desk.read, shelf]
    rw [Folder.read_put_self stands file found, unifyLineBreaks_of_no_return none]
  · intro other apart
    rw [Desk.Shares, shelf] at apart
    simp only [Desk.read, shelf]
    exact Folder.read_put_of_not_shares stands file found apart

/-- A text that was written has been put into the file in which the routine is looked for. -/
theorem Folder.write_eq_put {tree files : Tree} {root : Path}
    (written : Folder.write tree root identity text = .ok files) :
    ∃ path entry, Folder.pathFor tree root identity = .ok path ∧ tree.look path = .ok entry ∧
      entry.isFile = true ∧ files = tree.put path (.file (Utf8.encode text)) := by
  rw [Folder.write] at written
  cases located : Folder.locate tree root identity with
  | error failure => simp [located, bind, Except.bind] at written
  | ok found =>
    obtain ⟨path, present⟩ := found
    obtain ⟨own, holds⟩ := Folder.locate_eq_ok_iff.mp located
    cases present with
    | false => simp [located, bind, Except.bind] at written
    | true =>
      simp only [located, bind, Except.bind, if_true, Tree.writeText, Tree.write] at written
      cases stands : tree.look path with
      | error fault =>
        rw [Tree.holds, stands] at holds
        cases fault <;> cases holds
      | ok entry =>
        rw [stands] at written
        cases entry with
        | directory => cases written
        | file bytes => exact ⟨path, _, own, stands, rfl, (Except.ok.inj written).symm⟩
        | database database => exact ⟨path, _, own, stands, rfl, (Except.ok.inj written).symm⟩

/-- Whatever was there before, a text is written, or the failure leaves all as it was. The cases
are the kinds of shelves, and on each of them the text is written in one step. -/
theorem perform_writeRoutine_cases (identity : Identity) (new : Text) (desk : Desk) :
    (∃ failure, (writeRoutine identity new).perform desk = (.error failure, desk)) ∨
      ∃ after, (writeRoutine identity new).perform desk = (.ok ⟨⟩, after) ∧
        desk.Rewrites after identity [] new := by
  cases denied : desk.outage.commits.contains identity.name with
  | true => exact .inl ⟨_, perform_writeRoutine_denied denied new⟩
  | false =>
    rw [writeRoutine, Action.perform_bind_ok (Action.perform_get desk), denied]
    simp only [Bool.false_eq_true, if_false]
    rw [Action.perform_bind_ok (Action.perform_get desk)]
    cases shelf : desk.shelf with
    | table table =>
      cases table with
      | none => exact .inl ⟨_, rfl⟩
      | some catalog =>
        cases found : catalog.routine? identity with
        | none =>
          simp only [found]
          exact .inl ⟨_, rfl⟩
        | some routine =>
          simp only [found]
          exact .inr ⟨_, rfl, rewrites_table shelf found new⟩
    | folder root =>
      simp only
      rw [Action.perform_bind_ok (Action.perform_get desk)]
      cases written : Folder.write desk.files root identity new with
      | error failure => exact .inl ⟨failure, rfl⟩
      | ok files =>
        obtain ⟨path, entry, own, stands, file, rfl⟩ := Folder.write_eq_put written
        exact .inr ⟨_, rfl, rewrites_folder shelf own stands file List.not_mem_nil new⟩
    | nowhere => exact .inl ⟨_, rfl⟩

/-- A text that was written has replaced the old one, wherever definitions are kept. -/
theorem rewrites_of_written {new : Text} {written : Desk}
    (wrote : (writeRoutine identity new).perform desk = (.ok ⟨⟩, written)) :
    desk.Rewrites written identity [] new := by
  rcases perform_writeRoutine_cases identity new desk with ⟨failure, unwritten⟩ | ⟨after, wrote', rewrites⟩
  · rw [wrote] at unwritten
    cases unwritten
  · rw [wrote] at wrote'
    rwa [show written = after from congrArg Prod.snd wrote']

/-- A text that was read can be written over, where it is not denied: it stands in a row or in a
file that is there. -/
theorem perform_writeRoutine (read : desk.read identity = .ok text)
    (allowed : desk.outage.commits.contains identity.name = false) (new : Text) :
    ∃ after, (writeRoutine identity new).perform desk = (.ok ⟨⟩, after) ∧
      desk.Rewrites after identity text new := by
  rw [writeRoutine, Action.perform_bind_ok (Action.perform_get desk), allowed]
  simp only [Bool.false_eq_true, if_false]
  rw [Action.perform_bind_ok (Action.perform_get desk)]
  rw [Desk.read] at read
  cases shelf : desk.shelf with
  | table table =>
    cases table with
    | none => simp [shelf] at read
    | some catalog =>
      cases found : catalog.routine? identity with
      | none => simp [shelf, found] at read
      | some routine =>
        refine ⟨_, ?_, rewrites_table shelf found new⟩
        simp only [found]
        rfl
  | folder root =>
    rw [shelf] at read
    obtain ⟨path, entry, found, stands, file, unreturned⟩ := Folder.read_eq_ok read
    refine ⟨_, ?_, rewrites_folder shelf found stands file unreturned new⟩
    simp only
    rw [Action.perform_bind_ok (Action.perform_get desk), Folder.write_eq_ok stands file found]
    rfl
  | nowhere => simp [shelf] at read

end SqlRenewal
