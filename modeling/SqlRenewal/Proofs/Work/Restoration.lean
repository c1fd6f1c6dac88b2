import SqlRenewal.Proofs.Work.Errands

/-!
# Taking a change back in a folder

A change in a folder that is taken back leaves the file with the text that was read from
it, and every other place as it was. Reading turns all line breaks into line feeds, while
writing leaves them alone. So the file has its own characters again exactly if no carriage
return was among them.
-/
namespace SqlRenewal

variable {desk after : Desk} {root path : Path} {identity : Identity}

/-! ### Characters of a file -/

/-- The characters that the bytes of a file encode. -/
def Tree.characters? (tree : Tree) (path : Path) : Option Text :=
  (tree.readBytes path).toOption.bind fun bytes => (Utf8.decode bytes).toOption

/-- Line breaks are unified already exactly if there is no carriage return, because unifying
leaves none. -/
theorem unifyLineBreaks_eq_self_iff {text : Text} : unifyLineBreaks text = text ↔ '\r' ∉ text := by
  constructor
  · intro same
    rw [← same]
    exact no_return_unifyLineBreaks text
  · exact unifyLineBreaks_of_no_return

/-- A file with an encoded text holds its characters. -/
theorem Tree.characters?_of_look {tree : Tree} {text : Text}
    (stands : tree.look path = .ok (.file (Utf8.encode text))) :
    tree.characters? path = some text := by
  rw [characters?, readBytes, stands]
  simp [Except.toOption, Utf8.decode_encode]

/-- The characters of a file are read with unified line breaks: bytes that have characters can be
decoded, and nothing else is done to them. -/
theorem Tree.readText_of_characters? {tree : Tree} {text : Text}
    (characters : tree.characters? path = some text) :
    tree.readText path = .ok (unifyLineBreaks text) := by
  rw [characters?] at characters
  rw [readText]
  cases contents : tree.readBytes path with
  | error fault => simp [contents, Except.toOption] at characters
  | ok bytes =>
    cases decoded : Utf8.decode bytes with
    | error fault => simp [contents, decoded, Except.toOption] at characters
    | ok found =>
      obtain rfl : found = text := by simpa [contents, decoded, Except.toOption] using characters
      simp only [decoded]

/-- What is read for a routine are the characters of its file, up to their line breaks. -/
theorem Folder.read_of_characters? {tree : Tree} {text : Text}
    (own : Folder.pathFor tree root identity = .ok path)
    (characters : tree.characters? path = some text) :
    Folder.read tree root identity = .ok (unifyLineBreaks text) := by
  have readable := Tree.readText_of_characters? characters
  obtain ⟨⟨entry, stands, _⟩, _⟩ := Folder.readText_eq_ok readable
  rw [Folder.read_present (Folder.locate_eq_present own stands), readable]
  rfl

/-! ### The change and its entry -/

/-- A change that is no preview has altered the text, and has written the new one. Every other way
to a verdict says something else. -/
theorem Desk.of_verdict_change {manner : Manner} {outcome : Outcome}
    (commit : manner.preview = false) (answer : desk.verdict manner identity = .ok outcome)
    (change : outcome.fate.isChange = true) :
    (∃ report, desk.renewal? manner identity = some report) ∧
      desk.writes manner identity = true := by
  simp only [Desk.verdict, commit] at answer
  simp only [Desk.renewal?, Desk.writes, commit]
  cases read : desk.read identity with
  | error failure => simp [read] at answer
  | ok text =>
    simp only [read] at answer
    split at answer
    · cases answer
    · split at answer
      · cases answer
        cases change
      · rename_i applicable altered
        simp only [Bool.false_eq_true, if_false] at answer
        split at answer
        · cases answer
        · simp_all

/-- A text that is altered is updated, unless writing is denied. -/
theorem Desk.Noting.exists_updated (noting : desk.Noting) {manner : Manner} {text : Text}
    (commit : manner.preview = false) (read : desk.read identity = .ok text)
    (applicable : renewalOverflows manner.rules text = false)
    (altered : (renew manner.rules text).changed = true)
    (allowed : desk.outage.commits.contains identity.name = false) :
    ∃ outcome after, (changeRoutine manner identity).perform desk = (.ok outcome, after) ∧
      outcome.fate = .updated := by
  obtain ⟨lines, performed⟩ := noting.perform_changeRoutine manner identity
  simp only [Desk.verdict, read, applicable, altered, commit, allowed] at performed
  exact ⟨_, _, performed, rfl⟩

/-- The choice falls on the last record, if it admits it: the record passes both filters, and it
stays the last of what they keep. -/
theorem Ledger.latestUpdated?_concat {ledger : Ledger} {front : List Record} {record : Record}
    (records : ledger.records = front ++ [record]) (committed : record.status = .updated)
    (owner : record.identity = identity) {choice : Choice} (admitted : choice.admits record = true) :
    ledger.latestUpdated? identity choice = some record := by
  have onTop : onStack identity record = true := by simp [onStack, committed, owner]
  rw [latestUpdated?, committed_eq, records, List.filter_append, List.filter_append,
    List.filter_cons_of_pos onTop, List.filter_nil,
    List.filter_cons_of_pos (p := fun other => choice.admits other) admitted, List.filter_nil,
    List.getLast?_concat]

/-- The newest record on which a choice may fall is found when it is sought. -/
theorem Ledger.sought_of_latestUpdated? {ledger : Ledger} {choice : Choice} {record : Record}
    (latest : ledger.latestUpdated? identity choice = some record) :
    ledger.sought identity choice = .ok (some record) := by
  simp only [sought, latest]

/-! ### There and back -/

/-- In a folder the text of a routine is put into the file in which it is looked for. -/
theorem Desk.withText_folder (folder : desk.shelf = .folder root)
    (own : Folder.pathFor desk.files root identity = .ok path) (text : Text) :
    desk.withText identity text =
      { desk with files := desk.files.put path (.file (Utf8.encode text)) } := by
  simp only [Desk.withText, folder, Shelf.withText, Shelf.filesWithText, own]

/-- The desk after a change in a folder: the file has a new text, and the ledger has the
one that was read. -/
structure Desk.FileChanged (desk : Desk) (path : Path) (identity : Identity) (before new : Text)
    (after : Desk) : Prop where
  shelf : after.shelf = desk.shelf
  files : after.files = desk.files.put path (.file (Utf8.encode new))
  ledger : after.ledger = desk.ledger.enter desk.now ⟨identity, before, new, true⟩
  allowed : after.outage.commits.contains identity.name = false

/-- A change that is committed in a folder has put the new text into the file, and its record on
the stack. -/
theorem Desk.Noting.perform_change_folder (noting : desk.Noting)
    (folder : desk.shelf = .folder root)
    (own : Folder.pathFor desk.files root identity = .ok path) {text : Text}
    (read : desk.read identity = .ok text) {rules : List Rule} {outcome : Outcome}
    (performed : (changeRoutine { rules, preview := false } identity).perform desk =
      (.ok outcome, after)) (change : outcome.fate.isChange = true) :
    (∃ new, desk.FileChanged path identity text new after) ∧
      outcome.backup = some (desk.ledger.lastRecord + 1) := by
  let manner : Manner := { rules, preview := false }
  obtain ⟨lines, changed⟩ := noting.perform_changeRoutine manner identity
  rw [performed, Prod.mk.injEq] at changed
  obtain ⟨answer, rfl⟩ := changed
  cases decided : desk.verdict manner identity with
  | error failure => simp [decided, Except.map] at answer
  | ok verdict =>
    obtain rfl : outcome = { verdict with backup := desk.number? manner identity } := by
      simpa [decided, Except.map] using answer
    obtain ⟨⟨report, renewal⟩, written⟩ := Desk.of_verdict_change rfl decided change
    obtain ⟨found, readAgain, rfl, _, _⟩ := Desk.renewal?_eq_some renewal
    obtain rfl : text = found := Except.ok.inj (read.symm.trans readAgain)
    have folderNoted : (desk.noted manner identity (renew rules text) true).shelf =
      .folder root := folder
    rw [Desk.changed_written renewal written, Desk.withText_folder folderNoted own]
    refine ⟨⟨_, rfl, rfl, rfl, ?_⟩, ?_⟩
    · have allowed : desk.outage.commits.contains identity.name = false := by
        simpa [Desk.writes, manner] using written
      exact allowed
    · rw [Desk.number?_renewal renewal]
      rfl

namespace Desk.FileChanged

variable {before new : Text} (changed : desk.FileChanged path identity before new after)
  (folder : desk.shelf = .folder root)
  (own : Folder.pathFor desk.files root identity = .ok path) {entry : Entry}
  (stands : desk.files.look path = .ok entry) (file : entry.isFile = true)

include changed

/-- The change is the newest one in the ledger. It was entered as the last record, so it is chosen
as the newest and under its own number. -/
theorem latestUpdated? {choice : Choice}
    (chosen : choice = .newest ∨ choice = .numbered (desk.ledger.lastRecord + 1 : Nat)) :
    after.ledger.latestUpdated? identity choice =
      some ((⟨identity, before, new, true⟩ : Draft).record desk.now (desk.ledger.lastRecord + 1)) := by
  have records : after.ledger.records = desk.ledger.records ++
      [(⟨identity, before, new, true⟩ : Draft).record desk.now (desk.ledger.lastRecord + 1)] := by
    rw [changed.ledger, Ledger.enter]
  refine Ledger.latestUpdated?_concat records rfl rfl ?_
  rcases chosen with rfl | rfl
  · rfl
  · simp [Choice.admits, Draft.record]

include folder own stands file

/-- The file is written over a second time, with the text that was read at first. -/
theorem perform_rollbackRun (noting : desk.Noting) (later : Stamp) {choice : Choice}
    (chosen : choice = .newest ∨ choice = .numbered (desk.ledger.lastRecord + 1 : Nat)) :
    ∃ summary restored, (rollbackRun identity choice).perform { after with now := later } =
        (.ok summary, restored) ∧
      restored.files = after.files.put path (.file (Utf8.encode before)) := by
  have latest := changed.latestUpdated? chosen
  have found := Ledger.sought_of_latestUpdated? latest
  have orderly : after.ledger.Orderly := changed.ledger ▸ noting.orderly.enter desk.now _
  obtain ⟨ledger, stage, stepped, _⟩ := orderly.advance_latest latest later
  have ownAfter : Folder.pathFor after.files root identity = .ok path := by
    have located := Folder.locate_eq_present own stands
    rw [← Folder.locate_put stands file identity, ← changed.files] at located
    exact (Folder.locate_eq_ok_iff.mp located).1
  have read : after.read identity = .ok (unifyLineBreaks new) := by
    simp only [Desk.read, changed.shelf, folder, changed.files]
    exact Folder.read_put_self stands file own new
  let waiting : Desk := { after with now := later }
  have readLater : waiting.read identity = .ok (unifyLineBreaks new) := read
  have foundLater : waiting.ledger.sought identity choice = .ok (some _) := found
  obtain ⟨lines, performed⟩ :=
    SqlRenewal.perform_rollbackRun_some foundLater readLater stepped
  have folderAfter : waiting.shelf = .folder root := changed.shelf.trans folder
  have allowed : waiting.outage.commits.contains identity.name = false := changed.allowed
  rw [allowed, if_neg Bool.false_ne_true, Desk.withText_folder folderAfter ownAfter] at performed
  exact ⟨_, _, performed, rfl⟩

end Desk.FileChanged

/-- After a committed change of a routine in a folder, taking it back succeeds. The file then
has the characters that it had, with a line feed for each of their line breaks, so they are
the same exactly if no carriage return was among them. No other place has changed. -/
theorem rollback_restores_file (noting : desk.Noting) (folder : desk.shelf = .folder root)
    (own : Folder.pathFor desk.files root identity = .ok path) {text : Text}
    (characters : desk.files.characters? path = some text) {rules : List Rule} {outcome : Outcome}
    (performed : (changeRoutine { rules, preview := false } identity).perform desk =
      (.ok outcome, after)) (change : outcome.fate.isChange = true) (later : Stamp)
    {choice : Choice} (chosen : choice = .newest ∨
      ∃ number : Nat, outcome.backup = some number ∧ choice = .numbered number) :
    ∃ summary restored,
      (rollbackRun identity choice).perform { after with now := later } = (.ok summary, restored) ∧
      restored.files.characters? path = some (unifyLineBreaks text) ∧
      (restored.files.characters? path = some text ↔ '\r' ∉ text) ∧
      ∀ other : Path, other.collapse ≠ path.collapse →
        restored.files.look other = desk.files.look other := by
  have readable := Tree.readText_of_characters? characters
  obtain ⟨⟨entry, stands, file⟩, _⟩ := Folder.readText_eq_ok readable
  have read : desk.read identity = .ok (unifyLineBreaks text) := by
    rw [Desk.read, folder]
    exact Folder.read_of_characters? own characters
  obtain ⟨⟨new, changed⟩, number⟩ :=
    noting.perform_change_folder folder own read performed change
  have chosenNewest : choice = .newest ∨ choice = .numbered (desk.ledger.lastRecord + 1 : Nat) := by
    rcases chosen with newest | ⟨given, backup, rfl⟩
    · exact .inl newest
    · rw [number, Option.some.injEq] at backup
      exact .inr (backup ▸ rfl)
  obtain ⟨summary, restored, rolledBack, files⟩ :=
    changed.perform_rollbackRun folder own stands file noting later chosenNewest
  have standsAfter : after.files.look path = .ok (.file (Utf8.encode new)) := by
    rw [changed.files]
    exact Tree.look_put_self stands file rfl
  have back : restored.files.characters? path = some (unifyLineBreaks text) := by
    rw [files]
    exact Tree.characters?_of_look (Tree.look_put_self standsAfter rfl rfl)
  refine ⟨summary, restored, rolledBack, back, ?_, ?_⟩
  · rw [back, Option.some.injEq, unifyLineBreaks_eq_self_iff]
  · intro other apart
    rw [files, Tree.look_put_of_ne standsAfter rfl rfl apart, changed.files,
      Tree.look_put_of_ne stands file rfl apart]

/-- A file with a line break and a character of two bytes: a change and its rollback give it
back. -/
theorem rollback_restores_file_single :
    let routine : Identity := ⟨['s'], ['n'], by decide, List.cons_ne_nil _ _⟩
    let root : Path := ⟨.here, [['d']]⟩
    let place : Path := root.child "s.n.sql".toList
    let text := "é\nRAISERROR(1)".toList
    let desk : Desk :=
      { shelf := .folder root
        files := ⟨[(root, .directory), (place, .file (Utf8.encode text))]⟩ }
    ∃ outcome after summary restored,
      (changeRoutine { rules := [], preview := false } routine).perform desk =
        (.ok outcome, after) ∧ outcome.fate = .updated ∧
      (rollbackRun routine .newest).perform after = (.ok summary, restored) ∧
      restored.files.characters? place = some text := by
  intro routine root place text desk
  have noting : desk.Noting := ⟨.ofEmpty ⟨_, rfl⟩ rfl, rfl, rfl⟩
  have own (bytes : List UInt8) : Folder.pathFor ⟨[(root, .directory), (place, .file bytes)]⟩ root
      routine = .ok place := by
    unfold place root routine
    cbv
  have stands (bytes : List UInt8) :
      Tree.look ⟨[(root, .directory), (place, .file bytes)]⟩ place = .ok (.file bytes) := by
    unfold place root
    cbv
  have characters := Tree.characters?_of_look (stands (Utf8.encode text))
  have read : desk.read routine = .ok (unifyLineBreaks text) :=
    Folder.read_of_characters? (own _) characters
  have same : unifyLineBreaks text = text := unifyLineBreaks_eq_self_iff.mpr (by decide)
  rw [same] at read
  let manner : Manner := { rules := [], preview := false }
  have applicable : renewalOverflows manner.rules text = false :=
    renewalOverflows_eq_false text List.all_nil
  have altered : (renew manner.rules text).changed = true := by
    unfold manner text
    cbv
  have commit : manner.preview = false := rfl
  have allowed : desk.outage.commits.contains routine.name = false := List.contains_nil
  obtain ⟨outcome, after, performed, updated⟩ :=
    noting.exists_updated commit read applicable altered allowed
  have change : outcome.fate.isChange = true := by
    rw [updated]
    rfl
  obtain ⟨summary, restored, rolledBack, _, back, _⟩ :=
    rollback_restores_file noting rfl (own _) characters performed change after.now (.inl rfl)
  exact ⟨outcome, after, summary, restored, performed, updated, rolledBack, back.mpr (by decide)⟩

/-- A carriage return is lost, although the file is listed, belongs to its routine and could
be changed and restored. -/
theorem rollback_loses_carriage_return :
    let routine : Identity := ⟨"dbo".toList, ['p'], by decide, List.cons_ne_nil _ _⟩
    let root : Path := ⟨.here, ["defs".toList]⟩
    let place : Path := root.child "dbo.p.sql".toList
    let text := "RAISERROR(1)\r\n".toList
    let desk : Desk :=
      { shelf := .folder root
        files := ⟨[(root, .directory), (place, .file (Utf8.encode text))]⟩ }
    let changed := (changeRoutine { rules := [], preview := false } routine).perform desk
    let restored := (rollbackRun routine .newest).perform changed.2
    desk.Noting ∧ Folder.files desk.files root = [place] ∧
      Folder.identityFor place = .ok routine ∧
      Folder.pathFor desk.files root routine = .ok place ∧
      changed.1.toOption.map Outcome.fate = some .updated ∧ restored.1.isOk = true ∧
      desk.files.characters? place = some text ∧
      restored.2.files.characters? place = some "RAISERROR(1)\n".toList := by
  refine ⟨⟨.ofEmpty ⟨_, rfl⟩ rfl, rfl, rfl⟩, ?_, ?_, ?_, ?_, ?_, ?_, ?_⟩ <;> cbv

end SqlRenewal
