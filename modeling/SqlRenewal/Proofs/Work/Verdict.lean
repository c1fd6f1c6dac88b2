import SqlRenewal.Proofs.Ledger.Entries
import SqlRenewal.Proofs.Work.Change
import SqlRenewal.Proofs.Work.Storing

/-!
# What a change comes to

As long as the ledger works, the change of a routine is decided by the text that is read
for it, and by whether writing is denied. This decides the answer, up to the number of the
backup, and what becomes of definitions and ledger.

The desk is described up to the lines that are added to its log.
-/
namespace SqlRenewal

/-- Every step of a record can be noted. -/
structure Desk.Noting (desk : Desk) : Prop where
  orderly : desk.ledger.Orderly
  backups : desk.outage.backups = false
  updates : desk.outage.updates = false

/-! ### Definitions -/

/-- The shelf with another text of a routine in its table. -/
def Shelf.withText (identity : Identity) (text : Text) : Shelf → Shelf
  | .table (some catalog) => .table (some (catalog.setText identity text))
  | other => other

/-- The files with another text in the file of a routine, if the shelf is a folder. -/
def Shelf.filesWithText (files : Tree) (identity : Identity) (text : Text) : Shelf → Tree
  | .folder root =>
    match Folder.pathFor files root identity with
    | .ok path => files.put path (.file (Utf8.encode text))
    | .error _ => files
  | _ => files

/-- The desk with another text of a routine. -/
def Desk.withText (desk : Desk) (identity : Identity) (text : Text) : Desk :=
  { desk with
    shelf := desk.shelf.withText identity text
    files := desk.shelf.filesWithText desk.files identity text }

variable {desk : Desk} {identity : Identity}

/-- A text that was read can be written over, where it is not denied: the row or the file from
which it was read is there. The cases are the kinds of shelves. -/
theorem perform_writeRoutine_eq {text : Text} (read : desk.read identity = .ok text)
    (allowed : desk.outage.commits.contains identity.name = false) (new : Text) :
    (writeRoutine identity new).perform desk = (.ok ⟨⟩, desk.withText identity new) := by
  rw [writeRoutine, Action.perform_bind_ok (Action.perform_get desk), allowed]
  simp only [Bool.false_eq_true, if_false]
  rw [Action.perform_bind_ok (Action.perform_get desk), Desk.withText]
  rw [Desk.read] at read
  cases shelf : desk.shelf with
  | table table =>
    cases table with
    | none => simp [shelf] at read
    | some catalog =>
      cases found : catalog.routine? identity with
      | none => simp [shelf, found] at read
      | some routine =>
        simp only [found]
        rfl
  | folder root =>
    rw [shelf] at read
    obtain ⟨path, entry, found, stands, file, _⟩ := Folder.read_eq_ok read
    simp only
    rw [Action.perform_bind_ok (Action.perform_get desk), Folder.write_eq_ok stands file found]
    simp only [Shelf.filesWithText, found, Shelf.withText, ← shelf]
    rfl
  | nowhere => simp [shelf] at read

/-! ### One change -/

/-- The renewal of the text of a routine, if it can be read and is altered. -/
def Desk.renewal? (desk : Desk) (manner : Manner) (identity : Identity) : Option Report :=
  match desk.read identity with
  | .error _ => none
  | .ok text =>
    if renewalOverflows manner.rules text then none
    else if (renew manner.rules text).changed then some (renew manner.rules text) else none

/-- A new text is written: the change is no preview, and writing is not denied. -/
def Desk.writes (desk : Desk) (manner : Manner) (identity : Identity) : Bool :=
  !manner.preview && !desk.outage.commits.contains identity.name

/-- The answer of a change, without the number of its backup. -/
def Desk.verdict (desk : Desk) (manner : Manner) (identity : Identity) : Except Failure Outcome :=
  match desk.read identity with
  | .error failure => .error failure
  | .ok text =>
    let report := renew manner.rules text
    let categories := foundCategories text
    if renewalOverflows manner.rules text then .error (.overflow ⟨⟩)
    else if !report.changed then .ok { identity, fate := .unchanged, categories }
    else if manner.preview then
      .ok { identity, fate := .previewed, categories, flags := report.flags }
    else if desk.outage.commits.contains identity.name then .error (.commit identity .denied)
    else .ok { identity, fate := .updated, categories, flags := report.flags }

/-- What a change enters in the ledger, if it makes a backup. -/
def Desk.draft? (desk : Desk) (manner : Manner) (identity : Identity) : Option Draft :=
  if manner.backup then
    (desk.renewal? manner identity).map fun report =>
      ⟨identity, report.before, report.text, desk.writes manner identity⟩
  else none

/-- The number of the backup that a change makes. -/
def Desk.number? (desk : Desk) (manner : Manner) (identity : Identity) : Option Nat :=
  (desk.draft? manner identity).map fun _ => desk.ledger.lastRecord + 1

/-- The text that a change writes. -/
def Desk.newText? (desk : Desk) (manner : Manner) (identity : Identity) : Option Text :=
  if desk.writes manner identity then (desk.renewal? manner identity).map Report.text else none

/-- The desk behind a change. -/
def Desk.changed (desk : Desk) (manner : Manner) (identity : Identity) : Desk :=
  let written :=
    match desk.newText? manner identity with
    | none => desk
    | some text => desk.withText identity text
  { written with ledger := desk.ledger.enterAll desk.now (desk.draft? manner identity).toList }

/-- A routine is due for renewal if its text can be read, no rule overflows on it, and it
changes. -/
theorem Desk.renewal?_eq_some {manner : Manner} {report : Report}
    (renewal : desk.renewal? manner identity = some report) :
    ∃ text, desk.read identity = .ok text ∧ report = renew manner.rules text ∧
      renewalOverflows manner.rules text = false ∧ report.changed = true := by
  rw [Desk.renewal?] at renewal
  split at renewal
  · cases renewal
  · rename_i text read
    simp only [Option.ite_none_left_eq_some, Option.ite_none_right_eq_some, Option.some.injEq]
      at renewal
    obtain ⟨applicable, altered, rfl⟩ := renewal
    exact ⟨text, read, rfl, by simpa using applicable, altered⟩

/-- A verdict is about its own routine, whichever of its cases it is: every outcome is built with
the identity that was asked for. -/
theorem Desk.verdict_identity {manner : Manner} {outcome : Outcome}
    (answer : desk.verdict manner identity = .ok outcome) : outcome.identity = identity := by
  simp only [Desk.verdict] at answer
  split at answer
  · cases answer
  · split at answer
    · cases answer
    · split at answer
      · cases answer
        rfl
      · split at answer
        · cases answer
          rfl
        · split at answer
          · cases answer
          · cases answer
            rfl

/-- A change enters its draft in the ledger, if it has one. -/
@[simp] theorem Desk.changed_ledger (desk : Desk) (manner : Manner) (identity : Identity) :
    (desk.changed manner identity).ledger =
      desk.ledger.enterAll desk.now (desk.draft? manner identity).toList := rfl

/-- A change ends no outage. -/
@[simp] theorem Desk.changed_outage (desk : Desk) (manner : Manner) (identity : Identity) :
    (desk.changed manner identity).outage = desk.outage := by
  rw [Desk.changed]
  cases desk.newText? manner identity <;> rfl

/-- A change takes no time. -/
@[simp] theorem Desk.changed_now (desk : Desk) (manner : Manner) (identity : Identity) :
    (desk.changed manner identity).now = desk.now := by
  rw [Desk.changed]
  cases desk.newText? manner identity <;> rfl

/-! ### What decides a change -/

/-- Both desks read the same for a routine, and deny the same writes. -/
structure Desk.Alike (desk other : Desk) (identity : Identity) : Prop where
  read : other.read identity = desk.read identity
  outage : other.outage = desk.outage

namespace Desk.Alike

variable {other : Desk} (alike : desk.Alike other identity) (manner : Manner)

include alike

/-- Desks that agree on a routine come to the same verdict on it. -/
theorem verdict : other.verdict manner identity = desk.verdict manner identity := by
  rw [Desk.verdict, Desk.verdict, alike.read, alike.outage]

/-- Desks that agree on a routine have the same renewal for it. -/
theorem renewal? : other.renewal? manner identity = desk.renewal? manner identity := by
  rw [Desk.renewal?, Desk.renewal?, alike.read]

/-- Desks that agree on a routine both write it, or neither. -/
theorem writes : other.writes manner identity = desk.writes manner identity := by
  rw [Desk.writes, Desk.writes, alike.outage]

/-- Desks that agree on a routine enter the same draft for it. -/
theorem draft? : other.draft? manner identity = desk.draft? manner identity := by
  rw [Desk.draft?, Desk.draft?, alike.renewal?, alike.writes]

/-- Desks that agree on a routine write the same text for it. -/
theorem newText? : other.newText? manner identity = desk.newText? manner identity := by
  rw [Desk.newText?, Desk.newText?, alike.renewal?, alike.writes]

end Desk.Alike

/-! ### How a change comes to this -/

/-- The desk with a note of the change in its ledger, if backups are made. -/
def Desk.noted (desk : Desk) (manner : Manner) (identity : Identity) (report : Report)
    (written : Bool) : Desk :=
  { desk with
    ledger :=
      if manner.backup then
        desk.ledger.enter desk.now ⟨identity, report.before, report.text, written⟩
      else desk.ledger }

section Changed

variable {manner : Manner} {report : Report}

/-- Where there is nothing to renew a change changes nothing. -/
theorem Desk.changed_idle (idle : desk.renewal? manner identity = none) :
    desk.changed manner identity = desk := by
  simp [Desk.changed, Desk.newText?, Desk.draft?, idle, Ledger.enterAll]

/-- Where a text is not written only its draft is entered. -/
theorem Desk.changed_unwritten (renewal : desk.renewal? manner identity = some report)
    (unwritten : desk.writes manner identity = false) :
    desk.changed manner identity = desk.noted manner identity report false := by
  cases backup : manner.backup <;>
    simp [Desk.changed, Desk.newText?, Desk.draft?, Desk.noted, renewal, unwritten, backup,
      Ledger.enterAll]

/-- Where a text is written its draft is entered, and the text is put in the place of the old
one. -/
theorem Desk.changed_written (renewal : desk.renewal? manner identity = some report)
    (written : desk.writes manner identity = true) :
    desk.changed manner identity =
      (desk.noted manner identity report true).withText identity report.text := by
  cases backup : manner.backup <;>
    simp [Desk.changed, Desk.newText?, Desk.draft?, Desk.noted, Desk.withText, renewal, written,
      backup, Ledger.enterAll]

/-- The number that an outcome shows is that of the next record, if a backup is wanted. -/
theorem Desk.number?_renewal (renewal : desk.renewal? manner identity = some report) :
    desk.number? manner identity = (if manner.backup then
      some (desk.ledger.nextRecord desk.now identity report.before (some report.text))
        else none).map Record.id := by
  rw [Desk.number?, Desk.draft?, renewal]
  cases manner.backup <;> rfl

end Changed

namespace Desk.Noting

variable {manner : Manner} {report : Report} {categories : List Category}

/-- Steps can be noted with more lines in the log. -/
theorem logged (noting : desk.Noting) (lines : List LogLine) : (desk.logged lines).Noting :=
  ⟨noting.orderly, noting.backups, noting.updates⟩

/-- Steps can be noted after a change, which leaves the table of events there. -/
theorem changed (noting : desk.Noting) (manner : Manner) (identity : Identity) :
    (desk.changed manner identity).Noting := by
  refine ⟨noting.orderly.enterAll desk.now _, ?_, ?_⟩
  · rw [Desk.changed_outage]
    exact noting.backups
  · rw [Desk.changed_outage]
    exact noting.updates

/-- A backup is noted, if one is made, and the operation goes on with its record; at a desk that
notes everything a backup is not refused. -/
theorem perform_backUp (noting : desk.Noting) (manner : Manner) (identity : Identity)
    (report : Report) (next : Option Record → Action Outcome) :
    ∃ lines, (if manner.backup = true then
        some <$> SqlRenewal.backUp identity report.before (some report.text) >>= next
      else pure none >>= next).perform desk =
        (next (if manner.backup then
            some (desk.ledger.nextRecord desk.now identity report.before (some report.text))
          else none)).perform ((desk.noted manner identity report false).logged lines) := by
  by_cases wanted : manner.backup = true
  · have performed := SqlRenewal.perform_backUp identity report.before (some report.text) desk
    simp only [noting.backups, Bool.false_eq_true, if_false, noting.orderly.append_eq_enter]
      at performed
    rw [if_pos wanted, if_pos wanted, Action.perform_bind_ok (Action.perform_map_ok performed _)]
    simp only [Desk.noted, wanted, if_true]
    exact ⟨_, rfl⟩
  · rw [if_neg wanted, if_neg wanted]
    simp only [Desk.noted, wanted]
    exact ⟨[], by simp [Desk.logged]⟩

/-- The backup of a text that was written is marked, or the fault of the ledger becomes a part of
the answer. -/
theorem perform_settleBackup (noting : desk.Noting) (manner : Manner) (identity : Identity)
    (report : Report) (lines : List LogLine) :
    (settleBackup identity (if manner.backup then
        some (desk.ledger.nextRecord desk.now identity report.before (some report.text))
      else none)).perform
        (((desk.noted manner identity report false).withText identity report.text).logged lines) =
      (.ok none,
        ((desk.noted manner identity report true).withText identity report.text).logged lines) := by
  by_cases wanted : manner.backup = true
  · simp only [Desk.noted, wanted, if_true, settleBackup, Action.perform_tryCatch]
    let backed : Desk :=
      { desk with ledger := desk.ledger.enter desk.now ⟨identity, report.before, report.text, false⟩ }
    let written := (backed.withText identity report.text).logged lines
    have allowed : written.outage.updates = false := noting.updates
    have stepped : written.ledger.advance written.now _ .updated = .ok _ :=
      noting.orderly.advance_enter desk.now identity report.before report.text
    rw [Action.perform_bind_ok ((perform_markUpdated allowed _ none).trans
      (perform_advanceRecord_ok stepped))]
    rfl
  · simp only [Desk.noted, wanted]
    rfl

/-- The end of a change, after the backup: a preview stops, a text that may not be written fails,
and otherwise the text is stored and the backup marked. -/
theorem perform_concludeChange (noting : desk.Noting)
    (renewal : desk.renewal? manner identity = some report) (lines : List LogLine) :
    ∃ more, (concludeChange manner identity report categories (if manner.backup then
        some (desk.ledger.nextRecord desk.now identity report.before (some report.text))
      else none)).perform ((desk.noted manner identity report false).logged lines) =
      ((if manner.preview then
          .ok { identity, fate := .previewed, categories, flags := report.flags }
        else if desk.outage.commits.contains identity.name then .error (.commit identity .denied)
        else .ok { identity, fate := .updated, categories, flags := report.flags } :
          Except Failure Outcome).map fun outcome =>
            { outcome with backup := desk.number? manner identity },
        (desk.changed manner identity).logged more) := by
  obtain ⟨text, read, _⟩ := Desk.renewal?_eq_some renewal
  rw [Desk.number?_renewal renewal]
  by_cases preview : manner.preview = true
  · rw [Desk.changed_unwritten renewal (by simp [Desk.writes, preview])]
    simp only [concludeChange, preview, if_true, Action.perform_bind_ok (perform_say _ _ _ _)]
    exact ⟨lines ++ _, by simp only [Desk.logged, List.append_assoc]; rfl⟩
  · by_cases denied : desk.outage.commits.contains identity.name = true
    · have deniedNow : ((desk.noted manner identity report false).logged
          lines).outage.commits.contains identity.name = true := denied
      have refused := perform_writeRoutine_denied deniedNow report.text
      rw [Desk.changed_unwritten renewal (by rw [Desk.writes, denied, Bool.not_true, Bool.and_false])]
      simp only [concludeChange, preview, if_false, denied, if_true, Bool.false_eq_true,
        Action.perform_bind_error refused]
      exact ⟨lines, rfl⟩
    · have allowed : desk.outage.commits.contains identity.name = false := by simpa using denied
      have readNow : ((desk.noted manner identity report false).logged lines).read identity =
        .ok text := read
      have wrote : (writeRoutine identity report.text).perform
          ((desk.noted manner identity report false).logged lines) = (.ok ⟨⟩,
            ((desk.noted manner identity report false).withText identity report.text).logged lines) :=
        perform_writeRoutine_eq readNow allowed report.text
      have settled := noting.perform_settleBackup manner identity report lines
      rw [Desk.changed_written renewal (by rw [Desk.writes, allowed]; simp [preview])]
      simp only [concludeChange, preview, Bool.false_eq_true, if_false, allowed,
        Action.perform_bind_ok wrote, Action.perform_bind_ok settled,
        Action.perform_bind_ok (perform_say _ _ _ _)]
      exact ⟨lines ++ _, by simp only [Desk.logged, List.append_assoc]; rfl⟩

/-- A change of one routine comes to the verdict on it, and leaves the desk that is foreseen for
it. The steps are taken in their order, and each of them can end the change. -/
theorem perform_changeRoutine (noting : desk.Noting) (manner : Manner) (identity : Identity) :
    ∃ lines, (changeRoutine manner identity).perform desk =
      ((desk.verdict manner identity).map fun outcome =>
          { outcome with backup := desk.number? manner identity },
        (desk.changed manner identity).logged lines) := by
  rw [changeRoutine_eq]
  cases read : desk.read identity with
  | error failure =>
    refine ⟨[], ?_⟩
    rw [Action.perform_bind_error ((perform_readRoutine identity desk).trans (by rw [read]))]
    rw [Desk.changed_idle (by simp [Desk.renewal?, read])]
    simp [Desk.verdict, read, Except.map, Desk.logged]
  | ok text =>
    obtain ⟨lines, renewed⟩ := perform_renewLogged manner.rules text desk
    rw [Action.perform_bind_ok ((perform_readRoutine identity desk).trans (by rw [read]))]
    by_cases overflows : renewalOverflows manner.rules text = true
    · refine ⟨lines, ?_⟩
      rw [if_pos overflows] at renewed
      rw [Action.perform_bind_error renewed]
      rw [Desk.changed_idle (by simp [Desk.renewal?, read, overflows])]
      simp [Desk.verdict, read, overflows, Except.map]
    · rw [if_neg overflows] at renewed
      rw [Action.perform_bind_ok renewed]
      by_cases altered : (renew manner.rules text).changed = true
      · have renewal : desk.renewal? manner identity = some (renew manner.rules text) := by
          simp [Desk.renewal?, read, overflows, altered]
        obtain ⟨more, prepared⟩ := (noting.logged lines).perform_backUp manner identity
          (renew manner.rules text)
          (concludeChange manner identity (renew manner.rules text) (foundCategories text))
        have backed : ((desk.logged lines).noted manner identity (renew manner.rules text)
            false).logged more =
            (desk.noted manner identity (renew manner.rules text) false).logged (lines ++ more) := by
          simp [Desk.logged, Desk.noted]
        obtain ⟨all, concluded⟩ := noting.perform_concludeChange renewal (lines ++ more)
        refine ⟨all, ?_⟩
        simp only [altered, Bool.not_true, Bool.false_eq_true, if_false]
        rw [backed] at prepared
        refine prepared.trans (concluded.trans ?_)
        simp only [Desk.verdict, read, overflows, altered, Bool.not_true, Bool.false_eq_true,
          if_false]
      · simp only [altered, Bool.not_false, if_true, Action.perform_bind_ok (perform_say _ _ _ _)]
        have idle : desk.renewal? manner identity = none := by
          simp [Desk.renewal?, read, overflows, altered]
        have unnumbered : desk.number? manner identity = none := by
          simp [Desk.number?, Desk.draft?, idle]
        rw [Desk.changed_idle idle, unnumbered]
        simp only [Desk.verdict, read, overflows, altered]
        exact ⟨lines ++ _, by simp only [Desk.logged, List.append_assoc]; rfl⟩

end Desk.Noting

end SqlRenewal
