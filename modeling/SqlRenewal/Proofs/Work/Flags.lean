import SqlRenewal.Proofs.Renewal.Detection
import SqlRenewal.Proofs.Work.BackupFirst
import SqlRenewal.Proofs.Work.Forecast
import SqlRenewal.Proofs.Work.Keeping

/-!
# Who gets to see the review flags

The renewal of a text raises flags for a person to look at. A preview shows all of them.
A change shows all of them too, on whichever of its ways it ends, as long as it has a new
text to write, or would have one. A text that stays as it is ends the change early, and the
flags are not reported then. There are such texts with flags: those in which no statement
can be replaced.
-/
namespace SqlRenewal

variable {desk after : Desk} {manner : Manner} {identity : Identity} {report : Report}
  {categories : List Category} {outcome : Outcome}

/-! ### Changes -/

/-- Behind the backup, every way to an outcome keeps the flags: the outcome is made before the
preview stops, and only its fate is changed later. -/
theorem flags_concludeChange {record : Option Record}
    (ended : (concludeChange manner identity report categories record).perform desk =
      (.ok outcome, after)) : outcome.flags = report.flags := by
  rw [concludeChange] at ended
  by_cases preview : manner.preview = true
  · rw [if_pos preview, Action.perform_bind_ok (perform_say _ _ _ _)] at ended
    cases ended
    rfl
  · rw [if_neg preview] at ended
    obtain ⟨_, written, _, settling⟩ := Action.perform_bind_eq_ok.mp ended
    obtain ⟨fault, settled, _, answered⟩ := Action.perform_bind_eq_ok.mp settling
    cases fault with
    | some fault =>
      cases answered
      rfl
    | none =>
      rw [Action.perform_bind_ok (perform_say _ _ _ _)] at answered
      cases answered
      rfl

/-- The flags of a renewal that a change of the text reports. -/
def Report.reportedFlags (report : Report) : List Flag :=
  if report.changed then report.flags else []

/-- A renewal that answers gives the report of its text. The log and the refusal of an overflow
are all that is added to it. -/
theorem report_renewLogged {rules : List Rule} {text : Text}
    (renewed : (renewLogged rules text).perform desk = (.ok report, after)) :
    renew rules text = report := by
  obtain ⟨lines, performed⟩ := perform_renewLogged rules text desk
  rw [performed] at renewed
  have answer := congrArg Prod.fst renewed
  dsimp only at answer
  split at answer
  · cases answer
  · exact Except.ok.inj answer

/-- The flags of an outcome are those that the renewal of the text reports, by the cases of how a
change ends. -/
theorem flags_changeRoutine
    (ended : (changeRoutine manner identity).perform desk = (.ok outcome, after)) :
    ∃ text, desk.read identity = .ok text ∧
      outcome.flags = (renew manner.rules text).reportedFlags := by
  rw [changeRoutine_eq] at ended
  obtain ⟨text, first, read, renewing⟩ := Action.perform_bind_eq_ok.mp ended
  obtain ⟨report, second, renewed, changing⟩ := Action.perform_bind_eq_ok.mp renewing
  have found : desk.read identity = .ok text := by
    rw [perform_readRoutine] at read
    exact congrArg Prod.fst read
  obtain rfl := report_renewLogged renewed
  refine ⟨text, found, ?_⟩
  rw [Report.reportedFlags]
  by_cases changed : (renew manner.rules text).changed = true
  · rw [if_neg (by simp [changed])] at changing
    rw [if_pos changed]
    dsimp only at changing
    split at changing
    · obtain ⟨record, backed, _, concluding⟩ := Action.perform_bind_eq_ok.mp changing
      exact flags_concludeChange concluding
    · exact flags_concludeChange changing
  · rw [if_pos (by simp [changed]), Action.perform_bind_ok (perform_say _ _ _ _)] at changing
    rw [if_neg changed]
    cases changing
    rfl

/-- All flags are reported where the text changes, and otherwise only if there are none. -/
theorem Report.reportedFlags_eq_iff (report : Report) :
    report.reportedFlags = report.flags ↔ report.changed = true ∨ report.flags = [] := by
  rw [reportedFlags]
  by_cases changed : report.changed = true
  · simp [changed]
  · rw [if_neg changed, or_iff_right changed, eq_comm]

/-! ### Previews -/

variable {rules : List Rule} {scope : Scope} {summary : Summary} {text : Text}

/-- A text without deprecated syntax raises no flag, whatever the rules. -/
theorem flags_of_not_isLegacy (rules : List Rule) (clean : isLegacy text = false) :
    (renew rules text).flags = [] := by
  have nothing : ¬isLegacy text = true := by simp [clean]
  rw [isLegacy_iff, not_or, not_not] at nothing
  rw [renew_of_lacking nothing.1]
  rfl

/-- The listing gives a routine the text that is read. -/
def Desk.ListsAsRead (desk : Desk) (identity : Identity) : Prop :=
  ∀ routines, desk.routines = .ok routines → ∀ routine ∈ routines, routine.identity = identity →
    desk.read identity = .ok routine.text

/-- In good order all routines are listed so. -/
theorem Desk.Kept.listsAsRead (kept : desk.Kept) (identity : Identity) :
    desk.ListsAsRead identity := by
  obtain ⟨listed, listing, _, reads⟩ := kept.agrees
  rintro routines listing' routine member rfl
  obtain rfl := Except.ok.inj (listing.symm.trans listing')
  exact reads routine member

/-- A preview that comes to something is made of the listed routines, in their order; without a
listing there is none. -/
theorem outcomes_previewRun
    (previewed : ((previewRun rules scope).perform desk).1 = .ok summary) :
    ∃ routines, desk.routines = .ok routines ∧
      summary.outcomes = (scope.pick routines).map (Routine.previewed rules) := by
  cases listing : desk.routines with
  | error failure =>
    have unlisted := perform_listRoutines scope desk
    rw [listing] at unlisted
    rw [previewRun, Action.perform_bind_error unlisted] at previewed
    cases previewed
  | ok routines =>
    obtain ⟨lines, performed⟩ := perform_previewRun listing rules scope
    rw [performed] at previewed
    obtain ⟨_, rfl⟩ := previewAnswer_eq_ok_iff.mp previewed
    exact ⟨routines, rfl, Summary.outcomes_ofPreview ..⟩

/-- A preview shows the flags of the texts that are read. It renews what the listing says, and by
assumption this is what a reading gives. -/
theorem flags_previewRun (lists : desk.ListsAsRead identity)
    (previewed : ((previewRun rules scope).perform desk).1 = .ok summary)
    (read : desk.read identity = .ok text) {announced : Outcome} (member : announced ∈ summary.outcomes)
    (owner : announced.identity = identity) : announced.flags = (renew rules text).flags := by
  obtain ⟨routines, listing, outcomes⟩ := outcomes_previewRun previewed
  rw [outcomes] at member
  obtain ⟨routine, picked, rfl⟩ := List.mem_map.mp member
  have listed := lists routines listing routine (List.mem_filter.mp picked).1 owner
  rw [Except.ok.inj (read.symm.trans listed)]
  rfl

/-- It leaves out no routine of its scope that raises a flag, because a text without deprecated
syntax raises none, and all others are picked out. -/
theorem exists_announced (lists : desk.ListsAsRead identity)
    (previewed : ((previewRun rules scope).perform desk).1 = .ok summary)
    (named : identity ∈ desk.names) (admitted : scope.admits identity = true)
    (read : desk.read identity = .ok text) (flagged : (renew rules text).flags ≠ []) :
    ∃ announced ∈ summary.outcomes, announced.identity = identity := by
  obtain ⟨routines, listing, outcomes⟩ := outcomes_previewRun previewed
  rw [Desk.names, listing] at named
  obtain ⟨routine, member, rfl⟩ := List.mem_map.mp named
  have listed := lists routines listing routine member rfl
  have legacy : isLegacy routine.text = true := by
    by_contra clean
    rw [← Except.ok.inj (read.symm.trans listed)] at clean
    exact flagged (flags_of_not_isLegacy rules (by simpa using clean))
  refine ⟨routine.previewed rules, ?_, rfl⟩
  rw [outcomes]
  exact List.mem_map_of_mem (List.mem_filter.mpr ⟨member, by simp [admitted, legacy]⟩)

/-! ### Both -/

/-- What becomes of the flags of a routine, in its change and in a preview. -/
structure FlagsShown (manner : Manner) (identity : Identity) (desk : Desk) : Prop where
  /-- A change reports the flags if it has a new text, and otherwise none. -/
  change : ∀ outcome, ((changeRoutine manner identity).perform desk).1 = .ok outcome →
    ∃ text, desk.read identity = .ok text ∧
      outcome.flags = (renew manner.rules text).reportedFlags
  /-- So all of them are reported exactly if there is a new text, or no flag at all. -/
  complete : ∀ outcome text, ((changeRoutine manner identity).perform desk).1 = .ok outcome →
    desk.read identity = .ok text →
    (outcome.flags = (renew manner.rules text).flags ↔
      (renew manner.rules text).changed = true ∨ (renew manner.rules text).flags = [])
  /-- In good order the listing gives the text that is read. -/
  orderly : desk.Kept → desk.ListsAsRead identity
  /-- A preview shows them in any case. -/
  preview : desk.ListsAsRead identity → ∀ scope summary text,
    ((previewRun manner.rules scope).perform desk).1 = .ok summary →
    desk.read identity = .ok text → ∀ announced ∈ summary.outcomes, announced.identity = identity →
      announced.flags = (renew manner.rules text).flags
  /-- It names every routine of its scope that has some. -/
  named : desk.ListsAsRead identity → ∀ scope summary text,
    ((previewRun manner.rules scope).perform desk).1 = .ok summary →
    desk.read identity = .ok text → identity ∈ desk.names → scope.admits identity = true →
    (renew manner.rules text).flags ≠ [] →
      ∃ announced ∈ summary.outcomes, announced.identity = identity
  /-- The two agree where the change reports all of them. -/
  agree : desk.ListsAsRead identity → ∀ scope summary text outcome,
    ((previewRun manner.rules scope).perform desk).1 = .ok summary →
    desk.read identity = .ok text →
    ((changeRoutine manner identity).perform desk).1 = .ok outcome →
    ∀ announced ∈ summary.outcomes, announced.identity = identity →
      (outcome.flags = announced.flags ↔
        (renew manner.rules text).changed = true ∨ (renew manner.rules text).flags = [])

/-- The flags of a routine are shown by every preview, and by every change that has a new text.
Where the text stays the same, the outcome is made before the flags are looked at. -/
theorem changeRoutine_flagsShown (manner : Manner) (identity : Identity) (desk : Desk) :
    FlagsShown manner identity desk := by
  have change (outcome : Outcome)
      (ended : ((changeRoutine manner identity).perform desk).1 = .ok outcome) :
      ∃ text, desk.read identity = .ok text ∧
        outcome.flags = (renew manner.rules text).reportedFlags :=
    flags_changeRoutine (Prod.ext ended rfl)
  have complete (outcome : Outcome) (text : Text)
      (ended : ((changeRoutine manner identity).perform desk).1 = .ok outcome)
      (read : desk.read identity = .ok text) :
      outcome.flags = (renew manner.rules text).flags ↔
        (renew manner.rules text).changed = true ∨ (renew manner.rules text).flags = [] := by
    obtain ⟨found, read', reported⟩ := change outcome ended
    obtain rfl := Except.ok.inj (read'.symm.trans read)
    rw [reported]
    exact Report.reportedFlags_eq_iff _
  refine ⟨change, complete, fun kept => kept.listsAsRead identity, ?_, ?_, ?_⟩
  · intro lists scope summary text previewed read announced member owner
    exact flags_previewRun lists previewed read member owner
  · intro lists scope summary text previewed read listed admitted flagged
    exact exists_announced lists previewed listed admitted read flagged
  · intro lists scope summary text outcome previewed read ended announced member owner
    rw [flags_previewRun lists previewed read member owner]
    exact complete outcome text ended read

/-- A keyword without an end is left alone. A preview tells so, and a change does not. -/
theorem changeRoutine_hides_flags :
    let routine : Identity := ⟨['d'], ['p'], by decide, by decide⟩
    let desk : Desk := { shelf := .table (some [⟨routine, [], "RAISERROR(".toList⟩]) }
    ∃ outcome announced summary,
      ((changeRoutine { preview := false } routine).perform desk).1 = .ok outcome ∧
      ((previewRun builtinRules {}).perform desk).1 = .ok summary ∧
      summary.outcomes = [announced] ∧ announced.identity = routine ∧
      (renew builtinRules "RAISERROR(".toList).flags ≠ [] ∧
      announced.flags = (renew builtinRules "RAISERROR(".toList).flags ∧ outcome.flags = [] := by
  intro routine desk
  let stored : Routine := ⟨routine, [], "RAISERROR(".toList⟩
  have raised : (renew builtinRules stored.text).flags = [.leftUnchanged 0 .unclosed] := by cbv
  have idle : (renew builtinRules stored.text).changed = false := by cbv
  have legacy : isLegacy stored.text = true := by cbv
  have applicable (text : Text) : renewalOverflows builtinRules text = false :=
    renewalOverflows_eq_false text builtinRules_applicable
  have read : desk.read routine = .ok stored.text := rfl
  have undue : ∀ text, ¬ Due { preview := false } desk routine text := by
    intro text due
    have changes := due.changes
    rw [← Except.ok.inj (read.symm.trans due.read), idle] at changes
    cases changes
  obtain ⟨result, lines, performed, answered⟩ := perform_changeRoutine_undue undue
  obtain ⟨outcome, rfl, _⟩ := answered stored.text read (applicable _)
  have listing : desk.routines = .ok [stored] := congrArg Except.ok (List.mergeSort_singleton stored)
  have picked : Scope.pick {} [stored] = [stored] :=
    List.filter_eq_self.mpr (by simp [legacy, Scope.admits])
  obtain ⟨more, previewed⟩ := perform_previewRun listing builtinRules {}
  rw [previewAnswer_eq_ok_iff.mpr ⟨fun routine _ => applicable routine.text, rfl⟩, picked] at previewed
  refine ⟨outcome, stored.previewed builtinRules, _, congrArg Prod.fst performed,
    congrArg Prod.fst previewed, Summary.outcomes_ofPreview .., rfl, ?_, rfl, ?_⟩
  · change (renew builtinRules stored.text).flags ≠ []
    rw [raised]
    exact List.cons_ne_nil _ _
  · obtain ⟨text, read', reported⟩ := flags_changeRoutine performed
    rw [reported, ← Except.ok.inj (read.symm.trans read'), Report.reportedFlags]
    exact if_neg (by simp [idle])

end SqlRenewal
