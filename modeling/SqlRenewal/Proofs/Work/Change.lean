import SqlRenewal.Proofs.Work.Holding
import SqlRenewal.Proofs.Work.Calls

/-!
# What a change makes of a routine

A change that is committed replaces the text by its renewal, and puts a backup of
the text on the stack if backups are made. Any other change, be it a preview, one
that alters nothing or one that fails, leaves text and stack as they are. Other
routines keep both in any case, and a batch is a change of each of its routines.
-/
namespace SqlRenewal

/-- A change of the text is committed: it is no preview, all rules apply, and they
alter the text. -/
def Manner.commits (manner : Manner) (text : Text) : Bool :=
  !manner.preview && !renewalOverflows manner.rules text && (renew manner.rules text).changed

/-- What a change makes of a routine. -/
inductive Changes (manner : Manner) : Holding → Holding → Prop where
  | idle {holding : Holding}
      (uncommitted : ∀ text, holding.text = some text → manner.commits text = false) :
      Changes manner holding holding
  | pushed {text : Text} {stack : List Record} {record : Record}
      (committed : manner.commits text = true) (backup : manner.backup = true)
      (before : record.before = text) (after : record.after = some (renew manner.rules text).text) :
      Changes manner ⟨some text, stack⟩ ⟨some (renew manner.rules text).text, stack ++ [record]⟩
  | untracked {text : Text} {stack : List Record}
      (committed : manner.commits text = true) (backup : manner.backup = false) :
      Changes manner ⟨some text, stack⟩ ⟨some (renew manner.rules text).text, stack⟩

variable {desk : Desk} {manner : Manner} {identity : Identity}

/-- To renew a text with its log is to renew it, unless a rule overflows; the lines do not matter
to the answer. -/
theorem perform_renewLogged (rules : List Rule) (text : Text) (desk : Desk) :
    ∃ lines, (renewLogged rules text).perform desk =
      (if renewalOverflows rules text then .error (.overflow ⟨⟩) else .ok (renew rules text),
        desk.logged lines) := by
  obtain ⟨lines, said⟩ := perform_forM_say (renew rules text).skips .debug .statements
    (fun skip => s!"Skipping RAISERROR at {skip.position}: {skip.reason.message}") desk
  refine ⟨lines, ?_⟩
  rw [renewLogged, Action.perform_bind_ok said]
  split <;> rfl

/-- The backup has been added to the ledger last, and waits for its text to be written. -/
structure Pending (desk : Desk) (identity : Identity) (record : Record) : Prop where
  stage : record.stage = .backedUp
  identity : record.identity = identity
  last : ∃ older, desk.ledger.records = older ++ [record]

/-- The backup of a text that has been written, if there is one, is put on the stack. -/
theorem Sound.perform_settleBackup (sound : Sound desk) {text : Text}
    (stored : desk.text? identity = some text) {backup : Option Record}
    (pending : ∀ record ∈ backup, Pending desk identity record) :
    ∃ after stamp, (settleBackup identity backup).perform desk = (.ok none, after) ∧ Sound after ∧
      after.shelf = desk.shelf ∧ ∀ other, after.stack other = desk.stack other ++
        if other = identity then
          backup.toList.map fun record => { record with stage := .updated stamp } else [] := by
  cases backup with
  | none => exact ⟨desk, desk.now, rfl, sound, rfl, by simp⟩
  | some record =>
    obtain ⟨stage, rfl, older, last⟩ := pending record rfl
    obtain ⟨after, marked, soundAfter, shelf, stackOf⟩ := sound.perform_markUpdated last stage stored
    refine ⟨after, desk.now, ?_, soundAfter, shelf, stackOf⟩
    rw [settleBackup, Action.perform_tryCatch, Action.perform_bind_ok marked]
    rfl

/-- The part of a change that comes after the backup. -/
def concludeChange (manner : Manner) (identity : Identity) (report : Report)
    (categories : List Category) (record : Option Record) : Action Outcome := do
  let name := String.ofList identity.qualified
  let outcome : Outcome :=
    { identity, fate := .previewed, backup := record.map Record.id, categories, flags := report.flags }
  if manner.preview then
    say .info .changes ("PREVIEW: would update " ++ name)
    return outcome
  writeRoutine identity report.text
  match ← settleBackup identity record with
  | some fault => return { outcome with fate := .untracked, error := some fault }
  | none =>
    say .info .changes ("Updated: " ++ name)
    return { outcome with fate := .updated }

/-- A change is made up of a reading, a renewal, a backup, and a conclusion that begins with the
preview. The steps of the definition are the same, with the last ones under a name. -/
theorem changeRoutine_eq (manner : Manner) (identity : Identity) :
    changeRoutine manner identity = (do
      let text ← readRoutine identity
      let report ← renewLogged manner.rules text
      if !report.changed then
        say .debug .changes ("No changes needed for: " ++ String.ofList identity.qualified)
        return { identity, fate := .unchanged, categories := foundCategories text }
      let record ←
        if manner.backup then some <$> backUp identity text (some report.text) else pure none
      concludeChange manner identity report (foundCategories text) record) := rfl

variable {report : Report} {categories : List Category}

/-- A preview stops before anything is written. -/
theorem perform_concludeChange_preview (preview : manner.preview = true) (backup : Option Record)
    (desk : Desk) :
    ∃ outcome lines, (concludeChange manner identity report categories backup).perform desk =
      (.ok outcome, desk.logged lines) := by
  simp only [concludeChange, preview, if_true, Action.perform_bind_ok (perform_say _ _ _ _)]
  exact ⟨_, _, rfl⟩

/-- Outside a preview the text is written and its backup put on the stack. The text comes first,
so a failure of the mark leaves a text without a backup on the stack. -/
theorem Sound.perform_concludeChange (sound : Sound desk) (commit : manner.preview = false)
    {text : Text} (stored : desk.text? identity = some text) {backup : Option Record}
    (pending : ∀ record ∈ backup, Pending desk identity record) :
    ∃ outcome after stamp,
      (concludeChange manner identity report categories backup).perform desk = (.ok outcome, after) ∧
      outcome.fate = .updated ∧ Sound after ∧
      ∀ other, after.holding other = if other = identity then
        ⟨some report.text, desk.stack identity ++
          backup.toList.map fun record => { record with stage := .updated stamp }⟩
        else desk.holding other := by
  obtain ⟨written, wrote, soundWritten, ledger, texts⟩ := sound.perform_writeRoutine stored report.text
  have storedNow : written.text? identity = some report.text := by rw [texts, if_pos rfl]
  have pendingNow : ∀ record ∈ backup, Pending written identity record := by
    intro record member
    obtain ⟨stage, owner, last⟩ := pending record member
    exact ⟨stage, owner, ledger ▸ last⟩
  obtain ⟨after, stamp, settled, soundAfter, shelf, stackOf⟩ :=
    soundWritten.perform_settleBackup storedNow pendingNow
  have performed : ∃ outcome lines,
      (concludeChange manner identity report categories backup).perform desk =
        (.ok outcome, after.logged lines) ∧ outcome.fate = .updated := by
    simp only [concludeChange, commit, Bool.false_eq_true, if_false,
      Action.perform_bind_ok wrote, Action.perform_bind_ok settled,
      Action.perform_bind_ok (perform_say _ _ _ _)]
    exact ⟨_, _, rfl, rfl⟩
  obtain ⟨outcome, lines, performed, fate⟩ := performed
  refine ⟨outcome, after.logged lines, stamp, performed, fate, soundAfter.logged lines, ?_⟩
  intro other
  have sameText : after.text? other = written.text? other := text?_congr shelf other
  have sameStack : written.stack other = desk.stack other := by rw [Desk.stack, ledger, Desk.stack]
  rw [Desk.holding, Desk.logged_text?, Desk.logged_stack, sameText, texts, stackOf, sameStack]
  split
  · rename_i same
    rw [same]
  · rw [List.append_nil, Desk.holding]

/-- How a change of one routine leaves the desk. -/
structure Changed (manner : Manner) (identity : Identity) (desk : Desk)
    (ending : Except Failure Outcome × Desk) : Prop where
  sound : Sound ending.2
  changes : Changes manner (desk.holding identity) (ending.2.holding identity)
  others : ∀ other, other ≠ identity → ending.2.holding other = desk.holding other
  answer : ∀ text, desk.text? identity = some text → manner.commits text = true →
    ∃ outcome, ending.1 = .ok outcome ∧ outcome.fate = .updated

/-- Nothing is committed and all texts and stacks stay. The clause about a text that is committed
has nothing to say here. -/
theorem Changed.idle {result : Except Failure Outcome} {after : Desk} (sound : Sound after)
    (kept : ∀ other, after.holding other = desk.holding other)
    (uncommitted : ∀ text, desk.text? identity = some text → manner.commits text = false) :
    Changed manner identity desk (result, after) := by
  refine ⟨sound, ?_, fun other _ => kept other, ?_⟩
  · rw [kept]
    exact .idle uncommitted
  · intro text stored committed
    rw [uncommitted text stored] at committed
    cases committed

/-- The renewal of the text is committed: the text that was there is in the backup, and the new
one is at its place. -/
theorem Changed.commit (sound : Sound desk) {text : Text} (committed : manner.commits text = true)
    (stored : desk.text? identity = some text) {backup : Option Record}
    (pending : ∀ record ∈ backup, Pending desk identity record)
    (made : backup.isSome = manner.backup)
    (filled : ∀ record ∈ backup, record.before = text ∧
      record.after = some (renew manner.rules text).text) :
    Changed manner identity desk
      ((concludeChange manner identity (renew manner.rules text) categories backup).perform desk) := by
  have inEarnest : manner.preview = false := by
    simp only [Manner.commits, Bool.and_eq_true] at committed
    simpa using committed.1.1
  obtain ⟨outcome, after, stamp, performed, fate, soundAfter, holdings⟩ :=
    sound.perform_concludeChange inEarnest stored pending
  rw [performed]
  refine ⟨soundAfter, ?_, ?_, ?_⟩
  · rw [holdings, if_pos rfl, Desk.holding, stored]
    cases backup with
    | none =>
      rw [Option.toList_none, List.map_nil, List.append_nil]
      exact .untracked committed made.symm
    | some record =>
      obtain ⟨before, after⟩ := filled record rfl
      exact .pushed committed made.symm before after
  · intro other distinct
    rw [holdings, if_neg distinct]
  · intro found _ _
    exact ⟨outcome, rfl, fate⟩

/-- The description survives a step before the change that keeps texts and stacks, because it
speaks of nothing else. -/
theorem Changed.ofKept {earlier : Desk} {ending : Except Failure Outcome × Desk}
    (kept : ∀ other, desk.holding other = earlier.holding other)
    (changed : Changed manner identity desk ending) : Changed manner identity earlier ending := by
  have sameText : desk.text? identity = earlier.text? identity := congrArg Holding.text (kept identity)
  refine ⟨changed.sound, ?_, ?_, ?_⟩
  · rw [← kept]
    exact changed.changes
  · intro other distinct
    rw [changed.others other distinct, kept]
  · rw [← sameText]
    exact changed.answer

/-- The backup before a change, if backups are made, touches neither texts nor stacks, because its
record is not committed yet. -/
theorem Sound.prepare (sound : Sound desk) (manner : Manner) (identity : Identity) (text new : Text)
    (next : Option Record → Action Outcome) :
    ∃ backup backed,
      (if manner.backup = true then some <$> backUp identity text (some new) >>= next
        else pure none >>= next).perform desk = (next backup).perform backed ∧
      Sound backed ∧ (∀ other, backed.holding other = desk.holding other) ∧
      backup.isSome = manner.backup ∧
      (∀ record ∈ backup, Pending backed identity record) ∧
      ∀ record ∈ backup, record.before = text ∧ record.after = some new := by
  by_cases wanted : manner.backup = true
  · obtain ⟨backed, record, performed, soundBacked, shelf, last, rfl, stackOf⟩ :=
      sound.perform_backUp identity text (some new)
    rw [if_pos wanted, Action.perform_bind_ok (Action.perform_map_ok performed _)]
    refine ⟨_, backed, rfl, soundBacked, ?_, wanted.symm, ?_, ?_⟩
    · intro other
      rw [Desk.holding, text?_congr shelf, stackOf, Desk.holding]
    · rintro record ⟨⟩
      exact ⟨rfl, rfl, _, last⟩
    · rintro record ⟨⟩
      exact ⟨rfl, rfl⟩
  · rw [if_neg wanted]
    refine ⟨none, desk, rfl, sound, fun _ => rfl, ?_, by simp, by simp⟩
    simpa using wanted

/-- A change of one routine keeps the desk sound, and changes its text and its stack together or
not at all. The cases are the places at which the operation can stop. -/
theorem Sound.perform_changeRoutine (sound : Sound desk) (manner : Manner) (identity : Identity) :
    Changed manner identity desk ((changeRoutine manner identity).perform desk) := by
  have read := sound.perform_readRoutine identity
  rw [changeRoutine_eq]
  cases stored : desk.text? identity with
  | none =>
    rw [stored] at read
    rw [Action.perform_bind_error read]
    exact .idle sound (fun _ => rfl) (by simp [stored])
  | some text =>
    rw [stored] at read
    obtain ⟨lines, renewed⟩ := perform_renewLogged manner.rules text desk
    have onlyText {found : Text} (same : desk.text? identity = some found) : found = text :=
      Option.some.inj (same.symm.trans stored)
    by_cases overflows : renewalOverflows manner.rules text = true
    · rw [if_pos overflows] at renewed
      rw [Action.perform_bind_ok read, Action.perform_bind_error renewed]
      refine .idle (sound.logged lines) (fun _ => rfl) ?_
      intro found same
      simp [onlyText same, Manner.commits, overflows]
    · rw [if_neg overflows] at renewed
      rw [Action.perform_bind_ok read, Action.perform_bind_ok renewed]
      by_cases changed : (renew manner.rules text).changed = true
      · obtain ⟨backup, backed, prepared, soundBacked, kept, made, pending, filled⟩ :=
          (sound.logged lines).prepare manner identity text (renew manner.rules text).text
            (concludeChange manner identity (renew manner.rules text) (foundCategories text))
        simp only [changed, Bool.not_true, Bool.false_eq_true, if_false, prepared]
        by_cases preview : manner.preview = true
        · obtain ⟨outcome, more, performed⟩ := perform_concludeChange_preview preview backup backed
          rw [performed]
          refine .idle (soundBacked.logged more) kept ?_
          simp [Manner.commits, preview]
        · have committed : manner.commits text = true := by
            simp [Manner.commits, preview, overflows, changed]
          have storedNow : backed.text? identity = some text :=
            (congrArg Holding.text (kept identity)).trans stored
          exact .ofKept kept (.commit soundBacked committed storedNow pending made filled)
      · simp only [changed, Bool.not_false, if_true, Action.perform_bind_ok (perform_say _ _ _ _)]
        refine .idle ((sound.logged lines).logged _) (fun _ => rfl) ?_
        intro found same
        simp [onlyText same, Manner.commits, changed]

/-! ### Answers -/

/-- No way to change a routine answers for another one, or calls the change a failure: a failure
is an answer of the batch, not of the change. -/
theorem concludeChange_answers {manner : Manner} {identity : Identity} {report : Report}
    {categories : List Category} {record : Option Record} {desk after : Desk} {outcome : Outcome}
    (ended : (concludeChange manner identity report categories record).perform desk =
      (.ok outcome, after)) : outcome.identity = identity ∧ outcome.fate ≠ .failed := by
  rw [concludeChange] at ended
  by_cases preview : manner.preview = true
  · rw [if_pos preview, Action.perform_bind_ok (perform_say _ _ _ _)] at ended
    cases ended
    exact ⟨rfl, Fate.noConfusion⟩
  · rw [if_neg preview] at ended
    obtain ⟨_, written, _, settling⟩ := Action.perform_bind_eq_ok.mp ended
    obtain ⟨fault, settled, _, answered⟩ := Action.perform_bind_eq_ok.mp settling
    cases fault with
    | some fault =>
      cases answered
      exact ⟨rfl, Fate.noConfusion⟩
    | none =>
      rw [Action.perform_bind_ok (perform_say _ _ _ _)] at answered
      cases answered
      exact ⟨rfl, Fate.noConfusion⟩

/-- A change answers for its routine, on whichever way it ends: with nothing to renew, or through
the common end of all other changes. -/
theorem changeRoutine_answersFor (manner : Manner) (identity : Identity) (desk : Desk) :
    AnswersFor identity ((changeRoutine manner identity).perform desk).1 := by
  intro outcome answered
  obtain ⟨after, ended⟩ : ∃ after, (changeRoutine manner identity).perform desk =
      (.ok outcome, after) := ⟨_, Prod.ext answered rfl⟩
  rw [changeRoutine_eq] at ended
  obtain ⟨text, first, read, renewing⟩ := Action.perform_bind_eq_ok.mp ended
  obtain ⟨report, second, renewed, changing⟩ := Action.perform_bind_eq_ok.mp renewing
  by_cases changed : report.changed = true
  · rw [if_neg (by simp [changed])] at changing
    dsimp only at changing
    split at changing
    · obtain ⟨record, backed, _, concluding⟩ := Action.perform_bind_eq_ok.mp changing
      exact concludeChange_answers concluding
    · exact concludeChange_answers changing
  · rw [if_pos (by simp [changed]), Action.perform_bind_ok (perform_say _ _ _ _)] at changing
    cases changing
    exact ⟨rfl, Fate.noConfusion⟩

/-! ### Batches -/

/-- What so many changes make of a routine. -/
inductive ChangesTimes (manner : Manner) : Nat → Holding → Holding → Prop where
  | none {holding : Holding} : ChangesTimes manner 0 holding holding
  | more {times : Nat} {first second third : Holding} (change : Changes manner first second)
      (later : ChangesTimes manner times second third) :
      ChangesTimes manner (times + 1) first third

/-- Every routine is changed as many times as the batch calls for it: a call changes its own
routine and leaves the others alone, whatever it answers. -/
theorem Sound.calls {after : Desk} {identities : List Identity}
    {answers : List (Except Failure Outcome)} (sound : Sound desk)
    (calls : Calls (changeRoutine manner) desk identities answers after) :
    Sound after ∧ ∀ identity, ChangesTimes manner (identities.count identity)
      (desk.holding identity) (after.holding identity) := by
  induction calls with
  | done lines => exact ⟨sound.logged lines, fun _ => .none⟩
  | @call desk changed after first rest answer answers lines called later inductionHypothesis =>
    have change := (sound.logged lines).perform_changeRoutine manner first
    rw [called] at change
    obtain ⟨soundAfter, changes⟩ := inductionHypothesis change.sound
    refine ⟨soundAfter, fun identity => ?_⟩
    by_cases same : first = identity
    · subst same
      rw [List.count_cons_self]
      exact .more change.changes (changes first)
    · have other : changed.holding identity = desk.holding identity :=
        change.others identity fun equal => same equal.symm
      rw [List.count_cons_of_ne same, ← other]
      exact changes identity

/-- A batch of changes does to every routine as many changes as it is named, and one with a
negative size is refused before anything is done. -/
theorem Sound.perform_changeAll (sound : Sound desk) (manner : Manner) (size : Int)
    (identities : List Identity) :
    Sound ((changeAll manner size identities).perform desk).2 ∧
      ∀ identity, ChangesTimes manner (if size < 0 then 0 else identities.count identity)
        (desk.holding identity)
        (((changeAll manner size identities).perform desk).2.holding identity) := by
  by_cases negative : size < 0
  · rw [changeAll, perform_workAll_negative _ negative]
    simp only [negative, if_true]
    exact ⟨sound, fun _ => .none⟩
  · obtain ⟨answers, after, calls, performed⟩ :=
      perform_workAll (changeRoutine manner) (Int.not_lt.mp negative) identities desk
    rw [changeAll, performed]
    simp only [negative, if_false]
    exact sound.calls calls

end SqlRenewal
