import SqlRenewal.Proofs.Ledger.Chronicle
import SqlRenewal.Proofs.Renewal.Alphabet
import SqlRenewal.Proofs.Work.Change
import SqlRenewal.Proofs.Work.Storing

/-!
# Backups come first

A change with a backup can fail in three places: when the backup is made, when the new
text is written, and when the backup is marked. Whichever of them fail, a text is never
replaced unless a record holds it together with the text that replaced it.

Older records stay in any case, and so do the texts of other routines, unless one of them
has the same file. This can happen in a folder if a name has a point in it.
-/
namespace SqlRenewal

/-! ### The ledger -/

/-- The records are numbered as they should be, whether or not their events are there. -/
structure Ledger.Numbered (ledger : Ledger) : Prop where
  increasing : ledger.records.Pairwise fun older newer => older.id < newer.id
  bounded : ∀ record ∈ ledger.records, record.id ≤ ledger.lastRecord

/-- All records and events are still there, in their order and unchanged. -/
structure Ledger.Extends (ledger after : Ledger) : Prop where
  records : ledger.records <+: after.records
  events : ∀ events, ledger.events = some events → ∃ later, after.events = some (events ++ later)

/-- A ledger extends itself by no records. -/
theorem Ledger.Extends.refl (ledger : Ledger) : ledger.Extends ledger :=
  ⟨List.prefix_refl _, fun events noted => ⟨[], by simpa using noted⟩⟩

/-- The ledger has got one more record, with the text of a routine before and after a
change. -/
structure Ledger.Backs (ledger after : Ledger) (record : Record) (identity : Identity)
    (text new : Text) : Prop where
  records : after.records = ledger.records ++ [record]
  events : ∀ events, ledger.events = some events → ∃ later, after.events = some (events ++ later)
  identity : record.identity = identity
  before : record.before = text
  after : record.after = some new

/-- A ledger that backs a change has all records that were there, and one more. -/
theorem Ledger.Backs.extends {ledger after : Ledger} {record : Record} {identity : Identity}
    {text new : Text} (backs : ledger.Backs after record identity text new) :
    ledger.Extends after :=
  ⟨backs.records ▸ List.prefix_append _ _, backs.events⟩

/-- A new record waits for its text to be written. In a numbered ledger with a table of events
nothing stands in the way of the backup, and it is the last record with the last event. -/
theorem Ledger.Numbered.append {ledger : Ledger} (numbered : ledger.Numbered) {events : List Event}
    (noted : ledger.events = some events) (now : Stamp) (identity : Identity) (text new : Text) :
    ∃ backed, ledger.append now identity text (some new) =
        (backed, some (ledger.nextRecord now identity text (some new))) ∧ backed.Orderly ∧
      ledger.Backs backed (ledger.nextRecord now identity text (some new)) identity text new := by
  have orderly : ledger.Orderly := ⟨⟨events, noted⟩, numbered.increasing, numbered.bounded⟩
  obtain ⟨backed, appended, records, orderlyBacked⟩ := orderly.append now identity text (some new)
  refine ⟨backed, appended, orderlyBacked, records, ?_, rfl, rfl, rfl⟩
  intro old same
  obtain rfl := Option.some.inj (noted.symm.trans same)
  simp only [Ledger.append, noted, Prod.mk.injEq] at appended
  exact ⟨_, by rw [← appended.1]⟩

/-- The new record is marked where it stands: it is at the end of the ledger and waits for this
step, and one more event is noted behind its first. -/
theorem Ledger.Backs.advance {ledger backed : Ledger} {record : Record} {identity : Identity}
    {text new : Text} (backs : ledger.Backs backed record identity text new)
    (orderly : backed.Orderly) (pending : record.stage = .backedUp) (now : Stamp) :
    ∃ after, backed.advance now record.id .updated =
        .ok (after, { record with stage := .updated now }) ∧
      ledger.Backs after { record with stage := .updated now } identity text new := by
  have next : record.stage.step? now .updated = some (.updated now) := by
    rw [pending]
    rfl
  obtain ⟨after, stepped, records, _⟩ := orderly.advance backs.records next
  refine ⟨after, stepped, records, ?_, backs.identity, backs.before, backs.after⟩
  intro events noted
  obtain ⟨later, more⟩ := backs.events events noted
  obtain ⟨_, _, _, _, advances, _⟩ := orderly.advance_eq_ok stepped
  obtain ⟨noticed, there, written⟩ := advances.events
  obtain rfl := Option.some.inj (more.symm.trans there)
  exact ⟨_, by rw [written, List.append_assoc]⟩

/-! ### Steps of a change -/

/-- The text of a routine can be read, and its renewal is another text. -/
structure Due (manner : Manner) (desk : Desk) (identity : Identity) (text : Text) : Prop where
  read : desk.read identity = .ok text
  fits : renewalOverflows manner.rules text = false
  changes : (renew manner.rules text).changed = true

/-- A backup cannot be made: it is refused, or its event cannot be noted. -/
def Desk.RefusesBackups (desk : Desk) : Prop :=
  desk.outage.backups = true ∨ desk.ledger.events = none

variable {desk : Desk} {manner : Manner} {identity : Identity} {text : Text}

/-- A change that is due begins with the backup. The text is read, it fits, and it changes, so
nothing ends the work before. -/
theorem Due.perform_changeRoutine (due : Due manner desk identity text)
    (wanted : manner.backup = true) :
    ∃ lines, (changeRoutine manner identity).perform desk =
      (some <$> backUp identity text (some (renew manner.rules text).text) >>=
        concludeChange manner identity (renew manner.rules text) (foundCategories text)).perform
        (desk.logged lines) := by
  obtain ⟨lines, renewed⟩ := perform_renewLogged manner.rules text desk
  rw [due.fits] at renewed
  have read := perform_readRoutine identity desk
  rw [due.read] at read
  refine ⟨lines, ?_⟩
  rw [changeRoutine_eq, Action.perform_bind_ok read, Action.perform_bind_ok renewed]
  simp only [due.changes, Bool.not_true, Bool.false_eq_true, if_false, wanted, if_true]

/-- Without a backup the change goes no further: the refused backup ends the operation before
anything else is done. -/
theorem Due.perform_refused (due : Due manner desk identity text) (wanted : manner.backup = true)
    (refuses : desk.RefusesBackups) :
    ∃ fault after, (changeRoutine manner identity).perform desk = (.error (.ledger fault), after) ∧
      after.shelf = desk.shelf ∧ after.files = desk.files ∧
      after.ledger.records = desk.ledger.records ∧ after.ledger.events = desk.ledger.events ∧
      (desk.outage.backups = true → after.ledger = desk.ledger) := by
  obtain ⟨lines, begun⟩ := due.perform_changeRoutine wanted
  have backup := perform_backUp identity text (some (renew manner.rules text).text) (desk.logged lines)
  rw [begun]
  cases outage : desk.outage.backups with
  | true =>
    rw [if_pos (show (desk.logged lines).outage.backups = true from outage)] at backup
    rw [Action.perform_bind_error (Action.perform_map_error backup _)]
    exact ⟨_, _, rfl, rfl, rfl, rfl, rfl, fun _ => rfl⟩
  | false =>
    have unnoted : desk.ledger.events = none := by simpa [Desk.RefusesBackups, outage] using refuses
    rw [if_neg (by simp [Desk.logged, outage])] at backup
    simp only [Desk.logged, Ledger.append, unnoted] at backup
    simp only [Desk.logged]
    rw [Action.perform_bind_error (Action.perform_map_error backup _)]
    exact ⟨_, _, rfl, rfl, rfl, rfl, unnoted.symm, by simp⟩

/-- The backup of a text has been made, and the text is still there. -/
structure Prepared (desk backed : Desk) (record : Record) (identity : Identity) (text new : Text) :
    Prop where
  shelf : backed.shelf = desk.shelf
  files : backed.files = desk.files
  outage : backed.outage = desk.outage
  backs : desk.ledger.Backs backed.ledger record identity text new
  orderly : backed.ledger.Orderly
  pending : record.stage = .backedUp

/-- With a backup the change goes on, from a desk at which only the ledger is another one. -/
theorem Due.perform_prepared (due : Due manner desk identity text) (wanted : manner.backup = true)
    (numbered : desk.ledger.Numbered) (able : ¬ desk.RefusesBackups) :
    ∃ backed record, Prepared desk backed record identity text (renew manner.rules text).text ∧
      (changeRoutine manner identity).perform desk =
        (concludeChange manner identity (renew manner.rules text) (foundCategories text)
          (some record)).perform backed := by
  obtain ⟨lines, begun⟩ := due.perform_changeRoutine wanted
  rw [Desk.RefusesBackups, not_or] at able
  obtain ⟨allowed, present⟩ := able
  obtain ⟨events, noted⟩ := Option.ne_none_iff_exists'.mp present
  obtain ⟨ledger, appended, orderly, backs⟩ :=
    numbered.append noted desk.now identity text (renew manner.rules text).text
  have backup := perform_backUp identity text (some (renew manner.rules text).text) (desk.logged lines)
  rw [if_neg (show ¬ (desk.logged lines).outage.backups = true from allowed)] at backup
  simp only [Desk.logged, appended] at backup
  simp only [Desk.logged] at begun
  rw [Action.perform_bind_ok (Action.perform_map_ok backup _)] at begun
  refine ⟨_, _, ?_, begun⟩
  exact ⟨rfl, rfl, rfl, backs, orderly, rfl⟩

variable {backed : Desk} {record : Record} {report : Report} {categories : List Category} {new : Text}

/-- To back a change up is no change of any text. -/
theorem Prepared.read (prepared : Prepared desk backed record identity text new) (other : Identity) :
    backed.read other = desk.read other :=
  Desk.read_congr prepared.shelf prepared.files other

/-- To back a change up changes nothing about which routines share a file. -/
theorem Prepared.shares (prepared : Prepared desk backed record identity text new)
    (other : Identity) : backed.Shares identity other ↔ desk.Shares identity other := by
  rw [Desk.Shares, Desk.Shares, prepared.shelf, prepared.files]

/-- A text that cannot be written leaves its backup behind. -/
theorem perform_concludeChange_denied (commit : manner.preview = false)
    (denied : backed.outage.commits.contains identity.name = true) :
    (concludeChange manner identity report categories (some record)).perform backed =
      (.error (.commit identity .denied), backed) := by
  simp only [concludeChange, commit, Bool.false_eq_true, if_false,
    Action.perform_bind_error (perform_writeRoutine_denied denied report.text)]

/-- How a text that has been written leaves the desk. -/
structure Committed (desk after : Desk) (record : Record) (identity : Identity) (text new : Text) :
    Prop where
  stores : after.Stores identity new
  reads : ('\r' ∈ new → '\r' ∈ text) → after.read identity = .ok new
  others : ∀ other, ¬ desk.Shares identity other → after.read other = desk.read other
  backs : desk.ledger.Backs after.ledger record identity text new

/-- A prepared change whose text is written is committed: the backup was there before the text,
and writing it leaves the ledger alone. -/
theorem Prepared.committed (prepared : Prepared desk backed record identity text new)
    {written : Desk} (rewrites : backed.Rewrites written identity text new) (after : Desk)
    (shelf : after.shelf = written.shelf) (files : after.files = written.files) {final : Record}
    (backs : desk.ledger.Backs after.ledger final identity text new) :
    Committed desk after final identity text new := by
  have same (other : Identity) := Desk.read_congr shelf files other
  refine ⟨?_, ?_, ?_, backs⟩
  · have stores := rewrites.stores
    rw [Desk.Stores] at stores ⊢
    rwa [shelf, files]
  · intro sparing
    rw [same, rewrites.reads sparing]
  · intro other apart
    rw [same, rewrites.others other fun shared => apart ((prepared.shares other).mp shared),
      prepared.read]

/-- A text that was written is reported as changed, also if its backup cannot be marked. The text
is stored before the mark, so the mark only decides what is said about it. -/
theorem Prepared.perform_concludeChange
    (prepared : Prepared desk backed record identity text report.text)
    (read : desk.read identity = .ok text) (commit : manner.preview = false)
    (allowed : desk.outage.commits.contains identity.name = false) :
    ∃ outcome after final,
      (concludeChange manner identity report categories (some record)).perform backed =
        (.ok outcome, after) ∧
      Committed desk after final identity text report.text ∧ outcome.backup = some final.id ∧
      (if desk.outage.updates then outcome.fate = .untracked ∧ final.status = .backedUp
        else outcome.fate = .updated ∧ final.status = .updated) := by
  have readable : backed.read identity = .ok text := (prepared.read identity).trans read
  obtain ⟨written, wrote, rewrites⟩ :=
    perform_writeRoutine readable (by rw [prepared.outage, allowed]) report.text
  have ledger : written.ledger = backed.ledger := rewrites.ledger_eq
  have outage : written.outage = desk.outage := by
    rw [rewrites.rest]
    exact prepared.outage
  -- The new text is stored by now; the mark only decides what is said about it.
  cases refusing : desk.outage.updates with
  | true =>
    have marked := perform_markUpdated_refused (outage ▸ refusing) record.id none
    have settled : ∃ fault lines, (settleBackup identity (some record)).perform written =
        (.ok (some fault), written.logged lines) := by
      rw [settleBackup, Action.perform_tryCatch, Action.perform_bind_error marked]
      exact ⟨_, _, rfl⟩
    obtain ⟨fault, lines, settled⟩ := settled
    have committed := prepared.committed rewrites (written.logged lines) rfl rfl
      (ledger ▸ prepared.backs)
    simp only [concludeChange, commit, Bool.false_eq_true, if_false, Action.perform_bind_ok wrote,
      Action.perform_bind_ok settled]
    refine ⟨_, _, record, rfl, committed, rfl, ?_⟩
    simp [Record.status, prepared.pending, Stage.status]
  | false =>
    obtain ⟨advanced, stepped, backs⟩ :=
      prepared.backs.advance prepared.orderly prepared.pending written.now
    rw [← ledger] at stepped
    have marked := (perform_markUpdated (outage ▸ refusing) record.id none).trans
      (perform_advanceRecord_ok stepped)
    have settled : (settleBackup identity (some record)).perform written =
        (.ok none, { written with ledger := advanced }) := by
      rw [settleBackup, Action.perform_tryCatch, Action.perform_bind_ok marked]
      rfl
    have committed (lines : List LogLine) := prepared.committed rewrites
      (Desk.logged { written with ledger := advanced } lines) rfl rfl backs
    simp only [concludeChange, commit, Bool.false_eq_true, if_false, Action.perform_bind_ok wrote,
      Action.perform_bind_ok settled, Action.perform_bind_ok (perform_say _ _ _ _)]
    refine ⟨_, _, _, rfl, committed _, rfl, ?_⟩
    simp [Record.status, Stage.status]

/-- A change that is not due leaves nothing but lines in the log: the text cannot be read, a rule
overflows on it, or it has nothing to renew. -/
theorem perform_changeRoutine_undue (undue : ∀ text, ¬ Due manner desk identity text) :
    ∃ result lines, (changeRoutine manner identity).perform desk = (result, desk.logged lines) ∧
      ∀ text, desk.read identity = .ok text → renewalOverflows manner.rules text = false →
        ∃ outcome, result = .ok outcome ∧ outcome.fate = .unchanged := by
  have read := perform_readRoutine identity desk
  rw [changeRoutine_eq]
  cases found : desk.read identity with
  | error failure =>
    rw [found] at read
    rw [Action.perform_bind_error read]
    exact ⟨.error failure, [], by simp [Desk.logged], by simp⟩
  | ok text =>
    rw [found] at read
    obtain ⟨lines, renewed⟩ := perform_renewLogged manner.rules text desk
    rw [Action.perform_bind_ok read]
    cases overflows : renewalOverflows manner.rules text with
    | true =>
      rw [overflows] at renewed
      rw [Action.perform_bind_error renewed]
      refine ⟨_, lines, rfl, ?_⟩
      rintro _ ⟨⟩ fits
      rw [overflows] at fits
      cases fits
    | false =>
      rw [overflows] at renewed
      rw [Action.perform_bind_ok renewed]
      cases changed : (renew manner.rules text).changed with
      | true => exact absurd ⟨found, overflows, changed⟩ (undue text)
      | false =>
        simp only [Bool.not_false, if_true, Action.perform_bind_ok (perform_say _ _ _ _)]
        refine ⟨_, _, by simp only [Desk.logged, List.append_assoc]; rfl, ?_⟩
        rintro _ ⟨⟩ _
        exact ⟨_, rfl, rfl⟩

/-! ### The whole change -/

/-- All definitions are as they were. -/
def Desk.SameStore (desk after : Desk) : Prop :=
  after.shelf = desk.shelf ∧ after.files = desk.files

/-- What a change with a backup keeps to, however it ends. -/
structure Careful (manner : Manner) (identity : Identity) (desk after : Desk) : Prop where
  /-- A definition changes only where a new record holds both texts. -/
  covered : ¬ desk.SameStore after → ∃ text record, Due manner desk identity text ∧
    after.Stores identity (renew manner.rules text).text ∧
    desk.ledger.Backs after.ledger record identity text (renew manner.rules text).text ∧
    ((∀ rule ∈ manner.rules, rule ∈ builtinRules) →
      after.read identity = .ok (renew manner.rules text).text)
  previews : manner.preview = true → desk.SameStore after
  /-- Older records and events stay. -/
  records : desk.ledger.Extends after.ledger
  /-- So do the texts of other routines, unless they share the file. -/
  others : ∀ other, ¬ desk.Shares identity other → after.read other = desk.read other

/-- Where nothing was written there is nothing to back up. -/
theorem Careful.of_same {after : Desk} (same : desk.SameStore after)
    (records : desk.ledger.Extends after.ledger) : Careful manner identity desk after where
  covered := fun changed => absurd same changed
  previews := fun _ => same
  records := records
  others := fun other _ => Desk.read_congr same.1 same.2 other

/-- A committed change is careful, since its record holds the text that was there. Built-in rules
bring no carriage return, so with them the new text is read as it was written. -/
theorem Careful.of_committed {after : Desk} (due : Due manner desk identity text)
    (commit : manner.preview = false)
    (committed : Committed desk after record identity text (renew manner.rules text).text) :
    Careful manner identity desk after where
  covered := by
    intro _
    refine ⟨text, record, due, committed.stores, committed.backs, ?_⟩
    intro builtin
    exact committed.reads (renew_return builtin)
  previews := fun preview => absurd (preview.symm.trans commit) (by decide)
  records := committed.backs.extends
  others := committed.others

variable (wanted : manner.backup = true) (numbered : desk.ledger.Numbered)

include wanted numbered

/-- A change that is wanted with a backup is careful in every case: unreadable, unchanged, without
a backup, only previewed, refused at writing, or written. -/
theorem changeRoutine_careful :
    Careful manner identity desk ((changeRoutine manner identity).perform desk).2 := by
  by_cases some : ∃ text, Due manner desk identity text
  · obtain ⟨text, due⟩ := some
    by_cases refuses : desk.RefusesBackups
    · obtain ⟨fault, after, performed, shelf, files, records, events, _⟩ :=
        due.perform_refused wanted refuses
      rw [performed]
      refine .of_same ⟨shelf, files⟩ ⟨records ▸ List.prefix_refl _, ?_⟩
      intro old noted
      exact ⟨[], by rw [events, noted, List.append_nil]⟩
    · obtain ⟨backed, record, prepared, performed⟩ := due.perform_prepared wanted numbered refuses
      rw [performed]
      have same : desk.SameStore backed := ⟨prepared.shelf, prepared.files⟩
      cases preview : manner.preview with
      | true =>
        obtain ⟨outcome, lines, ended⟩ := perform_concludeChange_preview preview (some record) backed
        rw [ended]
        exact .of_same same prepared.backs.extends
      | false =>
        cases denied : desk.outage.commits.contains identity.name with
        | true =>
          rw [perform_concludeChange_denied preview (prepared.outage ▸ denied)]
          exact .of_same same prepared.backs.extends
        | false =>
          obtain ⟨outcome, after, final, ended, committed, _⟩ :=
            prepared.perform_concludeChange due.read preview denied
          rw [ended]
          exact .of_committed due preview committed
  · rw [not_exists] at some
    obtain ⟨result, lines, performed, _⟩ := perform_changeRoutine_undue some
    rw [performed]
    exact .of_same ⟨rfl, rfl⟩ (.refl _)

omit wanted numbered

/-- How a change with a backup ends, for every choice of what fails. -/
structure BacksUpFirst (manner : Manner) (identity : Identity) (desk : Desk)
    (ending : Except Failure Outcome × Desk) : Prop
    extends Careful manner identity desk ending.2 where
  /-- No backup: nothing happens. -/
  refused : ∀ text, Due manner desk identity text → desk.RefusesBackups →
    (∃ fault, ending.1 = .error (.ledger fault)) ∧ desk.SameStore ending.2 ∧
      ending.2.ledger.records = desk.ledger.records ∧ ending.2.ledger.events = desk.ledger.events ∧
      (desk.outage.backups = true → ending.2.ledger = desk.ledger)
  /-- The text cannot be written: the record stays without a mark. -/
  denied : ∀ text, Due manner desk identity text → ¬ desk.RefusesBackups →
    manner.preview = false → desk.outage.commits.contains identity.name = true →
    ending.1 = .error (.commit identity .denied) ∧ desk.SameStore ending.2 ∧
      ∃ record, desk.ledger.Backs ending.2.ledger record identity text
        (renew manner.rules text).text ∧ record.status = .backedUp
  /-- The record cannot be marked: the new text is there all the same. -/
  untracked : ∀ text, Due manner desk identity text → ¬ desk.RefusesBackups →
    manner.preview = false → desk.outage.commits.contains identity.name = false →
    desk.outage.updates = true →
    ∃ outcome record, ending.1 = .ok outcome ∧ outcome.fate = .untracked ∧
      outcome.backup = some record.id ∧ record.status = .backedUp ∧
      ending.2.Stores identity (renew manner.rules text).text ∧
      desk.ledger.Backs ending.2.ledger record identity text (renew manner.rules text).text
  /-- Nothing fails. -/
  updated : ∀ text, Due manner desk identity text → ¬ desk.RefusesBackups →
    manner.preview = false → desk.outage.commits.contains identity.name = false →
    desk.outage.updates = false →
    ∃ outcome record, ending.1 = .ok outcome ∧ outcome.fate = .updated ∧
      outcome.backup = some record.id ∧ record.status = .updated ∧
      ending.2.Stores identity (renew manner.rules text).text ∧
      desk.ledger.Backs ending.2.ledger record identity text (renew manner.rules text).text
  /-- Nothing is to be changed. -/
  unchanged : ∀ text, desk.read identity = .ok text → renewalOverflows manner.rules text = false →
    (renew manner.rules text).changed = false →
    (∃ outcome, ending.1 = .ok outcome ∧ outcome.fate = .unchanged) ∧ desk.SameStore ending.2 ∧
      ending.2.ledger = desk.ledger
  /-- With plain names, every other routine keeps its text. -/
  plain : ∀ other, other ≠ identity → Folder.Plain identity → Folder.Plain other →
    ending.2.read other = desk.read other

/-- A change writes no text before its backup is made. The cases are the ends of the operation,
each with the desk that it leaves, and every text that was written belongs to the record that was
prepared for it. -/
theorem changeRoutine_backsUpFirst (wanted : manner.backup = true)
    (numbered : desk.ledger.Numbered) :
    BacksUpFirst manner identity desk ((changeRoutine manner identity).perform desk) where
  toCareful := changeRoutine_careful wanted numbered
  refused := by
    intro text due refuses
    obtain ⟨fault, after, performed, shelf, files, records, events, kept⟩ :=
      due.perform_refused wanted refuses
    rw [performed]
    exact ⟨⟨fault, rfl⟩, ⟨shelf, files⟩, records, events, kept⟩
  denied := by
    intro text due able commit denied
    obtain ⟨backed, record, prepared, performed⟩ := due.perform_prepared wanted numbered able
    rw [performed, perform_concludeChange_denied commit (prepared.outage ▸ denied)]
    refine ⟨rfl, ⟨prepared.shelf, prepared.files⟩, record, prepared.backs, ?_⟩
    rw [Record.status, prepared.pending, Stage.status]
  untracked := by
    intro text due able commit allowed refusing
    obtain ⟨backed, record, prepared, performed⟩ := due.perform_prepared wanted numbered able
    obtain ⟨outcome, after, final, ended, committed, backup, fate⟩ :=
      prepared.perform_concludeChange due.read commit allowed
    rw [if_pos refusing] at fate
    rw [performed, ended]
    exact ⟨outcome, final, rfl, fate.1, backup, fate.2, committed.stores, committed.backs⟩
  updated := by
    intro text due able commit allowed working
    obtain ⟨backed, record, prepared, performed⟩ := due.perform_prepared wanted numbered able
    obtain ⟨outcome, after, final, ended, committed, backup, fate⟩ :=
      prepared.perform_concludeChange due.read commit allowed
    rw [if_neg (by simp [working])] at fate
    rw [performed, ended]
    exact ⟨outcome, final, rfl, fate.1, backup, fate.2, committed.stores, committed.backs⟩
  unchanged := by
    intro text read fits same
    have undue : ∀ other, ¬ Due manner desk identity other := by
      intro other due
      obtain rfl := Except.ok.inj (read.symm.trans due.read)
      rw [due.changes] at same
      cases same
    obtain ⟨result, lines, performed, answer⟩ := perform_changeRoutine_undue undue
    rw [performed]
    exact ⟨answer text read fits, ⟨rfl, rfl⟩, rfl⟩
  plain := by
    intro other distinct plain plain'
    exact (changeRoutine_careful wanted numbered).others other (desk.not_shares plain plain' distinct)

/-- The mark fails behind a text that was written: the new text is stored, and its record
waits. -/
theorem changeRoutine_backsUpFirst_unmarked :
    let routine : Identity := ⟨['d'], ['p'], by decide, by decide⟩
    let manner : Manner := { rules := [], preview := false }
    let desk : Desk :=
      { shelf := .table (some [⟨routine, [], "RAISERROR(1)".toList⟩]), outage := { updates := true } }
    let ending := (changeRoutine manner routine).perform desk
    manner.backup = true ∧ desk.ledger.Numbered ∧ BacksUpFirst manner routine desk ending ∧
      Due manner desk routine "RAISERROR(1)".toList ∧
      ∃ outcome record, ending.1 = .ok outcome ∧ outcome.fate = .untracked ∧
        ending.2.ledger.records = [record] ∧ record.before = "RAISERROR(1)".toList ∧
        record.status = .backedUp := by
  intro routine manner desk ending
  have numbered : desk.ledger.Numbered := ⟨.nil, by simp [desk]⟩
  have due : Due manner desk routine "RAISERROR(1)".toList := ⟨rfl, rfl, by cbv⟩
  have able : ¬ desk.RefusesBackups := by simp [Desk.RefusesBackups, desk]
  have first : BacksUpFirst manner routine desk ending := changeRoutine_backsUpFirst rfl numbered
  obtain ⟨outcome, record, answer, fate, _, status, _, backs⟩ :=
    first.untracked _ due able rfl rfl rfl
  exact ⟨rfl, numbered, first, due, outcome, record, answer, fate, backs.records, backs.before,
    status⟩

/-- The file of one routine is taken for that of another, whose name has a point in it. The
change of the other routine replaces its text, and no record holds this under its name. -/
theorem changeRoutine_changes_other_routine :
    let owner : Identity := ⟨['s'], ['n'], by decide, by decide⟩
    let other : Identity := ⟨defaultSchema, ['s', '.', 'n'], by decide, by decide⟩
    let root : Path := ⟨.here, [['d']]⟩
    let file : Path := ⟨.here, [['d'], "s.n.sql".toList]⟩
    let desk : Desk :=
      { shelf := .folder root
        files := ⟨[(root, .directory), (file, .file (Utf8.encode "RAISERROR(1)".toList))]⟩ }
    let after := ((changeRoutine { preview := false } other).perform desk).2
    owner ≠ other ∧ Folder.identityFor file = .ok owner ∧
      desk.read owner = .ok "RAISERROR(1)".toList ∧
      after.read owner = .ok ";THROW 50000, 'An error occurred', 1".toList ∧
      after.ledger.history owner = [] := by
  refine ⟨by decide, ?_, ?_, ?_, ?_⟩ <;> cbv

end SqlRenewal
