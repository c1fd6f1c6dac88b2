import SqlRenewal.Proofs.Work.Errands
import SqlRenewal.Proofs.Work.Isolation

/-!
# A preview foretells the changes

A preview renews the texts as they are listed. A run that changes routines reads each of
them again, while the ones before it are being written. In a table the two come to the
same, because no change touches the text of another routine.

There is one exception. A rule whose allowance fits into no word stops a preview, but a run
only fails for the routines whose renewal comes to that rule, and goes on with the others.
-/
namespace SqlRenewal

variable {rules : List Rule} {routine : Routine}

/-! ### The two accounts of a routine -/

/-- What a preview says about a routine to which all rules can be applied. -/
def Routine.previewed (rules : List Rule) (routine : Routine) : Outcome :=
  { identity := routine.identity
    fate := if (renew rules routine.text).changed then .previewed else .unchanged
    categories := foundCategories routine.text
    flags := (renew rules routine.text).flags }

/-- What the change of a routine says about it, without the number of its backup. -/
def Routine.committed (rules : List Rule) (routine : Routine) : Outcome :=
  if renewalOverflows rules routine.text then
    .ofAnswer routine.identity (.error (.overflow ⟨⟩))
  else if (renew rules routine.text).changed then
    { identity := routine.identity
      fate := .updated
      categories := foundCategories routine.text
      flags := (renew rules routine.text).flags }
  else
    { identity := routine.identity, fate := .unchanged, categories := foundCategories routine.text }

/-- The committed outcome of a routine is about that routine. -/
theorem Routine.committed_identity (rules : List Rule) (routine : Routine) :
    (routine.committed rules).identity = routine.identity := by
  rw [Routine.committed]
  repeat' split
  all_goals rfl

/-- What a preview says comes true: the change names the same routine and the same
categories, does not fail, and updates the routine if that was announced. -/
structure Outcome.Foretold (announced actual : Outcome) : Prop where
  identity : actual.identity = announced.identity
  categories : actual.categories = announced.categories
  updated : actual.fate = .updated ↔ announced.fate = .previewed
  isChange : actual.fate.isChange = announced.fate.isChange
  succeeds : actual.fate ≠ .failed

/-- A preview foretells the change of a routine to which all rules can be applied: both renew the
same text, and only what is written differs. -/
theorem Routine.foretold {actual : Outcome}
    (applicable : renewalOverflows rules routine.text = false)
    (committed : actual.unnumbered = routine.committed rules) :
    (routine.previewed rules).Foretold actual := by
  rw [Routine.committed, applicable, if_neg Bool.false_ne_true] at committed
  by_cases altered : (renew rules routine.text).changed = true
  · rw [if_pos altered, Outcome.unnumbered, Outcome.mk.injEq] at committed
    obtain ⟨identity, fate, _, categories, _⟩ := committed
    constructor
    · exact identity
    · exact categories
    all_goals simp [fate, Routine.previewed, altered, Fate.isChange]
  · rw [if_neg altered, Outcome.unnumbered, Outcome.mk.injEq] at committed
    obtain ⟨identity, fate, _, categories, _⟩ := committed
    constructor
    · exact identity
    · exact categories
    all_goals simp [fate, Routine.previewed, altered, Fate.isChange]

/-- A run makes good what a preview has announced. -/
structure Summary.Foretells (preview summary : Summary) : Prop where
  outcomes : List.Forall₂ Outcome.Foretold preview.outcomes summary.outcomes
  examined : summary.examined = preview.examined
  changed : summary.changed = preview.changed
  failed : summary.failed = 0

/-- A preview counts what it announces, by induction over the outcomes, for any summary to begin
with. -/
theorem Summary.ofPreview_eq (outcomes : List Outcome) (forms : List (Text × List Form)) :
    Summary.ofPreview outcomes forms =
      { mode := .preview
        preview := true
        examined := outcomes.length
        changed := outcomes.countP fun outcome => outcome.fate.isChange
        outcomes := outcomes
        details := .forms forms } := by
  have announced (summary : Summary) : outcomes.foldl announce summary =
      { summary with
        examined := summary.examined + outcomes.length
        changed := summary.changed + outcomes.countP fun outcome => outcome.fate.isChange
        outcomes := summary.outcomes ++ outcomes } := by
    induction outcomes generalizing summary with
    | nil => simp
    | cons outcome outcomes inductionHypothesis =>
      rw [List.foldl_cons, inductionHypothesis]
      cases changes : outcome.fate.isChange <;>
        simp [announce, changes, Nat.add_assoc, Nat.add_comm 1]
  rw [ofPreview, announced]
  simp

/-- A summary of previews has the outcomes of the previews. -/
@[simp] theorem Summary.outcomes_ofPreview (outcomes : List Outcome)
    (forms : List (Text × List Form)) : (Summary.ofPreview outcomes forms).outcomes = outcomes := by
  rw [ofPreview_eq]

/-- Results that are as announced add up to what was announced. The induction is over both lists
at once. -/
theorem Summary.foretells {announced : List Outcome} {forms : List (Text × List Form)}
    {summary : Summary} (tallied : summary.Tallied)
    (outcomes : List.Forall₂ Outcome.Foretold announced summary.outcomes) :
    (Summary.ofPreview announced forms).Foretells summary := by
  rw [ofPreview_eq]
  refine ⟨outcomes, tallied.examined.trans outcomes.length_eq.symm, tallied.changed.trans ?_,
    tallied.failed.trans ?_⟩
  · generalize summary.outcomes = actual at outcomes
    induction outcomes with
    | nil => rfl
    | cons first _ inductionHypothesis =>
      rw [List.countP_cons, inductionHypothesis, first.isChange, List.countP_cons]
  · rw [List.countP_eq_zero]
    generalize summary.outcomes = actual at outcomes
    induction outcomes with
    | nil => simp
    | cons first _ inductionHypothesis =>
      rw [List.forall_mem_cons]
      exact ⟨by simpa using first.succeeds, inductionHypothesis⟩

/-! ### The preview -/

/-- A preview comes to something exactly if no rule stops it. The induction is over the routines,
of which the first that is stopped decides. -/
theorem mapM_previewContent (rules : List Rule) (routines : List Routine) :
    (routines.map Routine.content).mapM (previewContent rules) =
      if routines.any fun routine => renewalOverflows rules routine.text then
        .error (.overflow ⟨⟩)
      else .ok (routines.map (Routine.previewed rules)) := by
  induction routines with
  | nil => rfl
  | cons routine routines inductionHypothesis =>
    rw [List.map_cons, List.mapM_cons, inductionHypothesis, List.any_cons, previewContent,
      Routine.content]
    cases renewalOverflows rules routine.text with
    | true => rfl
    | false =>
      cases routines.any fun routine => renewalOverflows rules routine.text <;> rfl

/-- A preview answers exactly if no rule overflows on any routine of the scope, and then it tells
what each of them comes to. -/
theorem previewAnswer_eq_ok_iff {scope : Scope} {routines : List Routine} {preview : Summary} :
    previewAnswer rules scope routines = .ok preview ↔
      (∀ routine ∈ scope.pick routines, renewalOverflows rules routine.text = false) ∧
        preview = .ofPreview ((scope.pick routines).map (Routine.previewed rules))
          (formsByName (scope.pick routines)) := by
  rw [previewAnswer, mapM_previewContent]
  split
  · rename_i overflows
    obtain ⟨routine, listed, overflow⟩ := List.any_eq_true.mp overflows
    constructor
    · intro answer
      cases answer
    · rintro ⟨applicable, _⟩
      rw [applicable routine listed] at overflow
      cases overflow
  · rename_i applicable
    have all : ∀ routine ∈ scope.pick routines, renewalOverflows rules routine.text = false := by
      simpa using applicable
    constructor
    · intro answer
      exact ⟨all, (Except.ok.inj answer).symm⟩
    · rintro ⟨_, rfl⟩
      rfl

/-- A preview fails only with the overflow of a rule, on one of the routines. -/
theorem previewAnswer_eq_error {scope : Scope} {routines : List Routine} {failure : Failure}
    (answer : previewAnswer rules scope routines = .error failure) :
    failure = .overflow ⟨⟩ ∧
      ∃ routine ∈ scope.pick routines, renewalOverflows rules routine.text = true := by
  rw [previewAnswer, mapM_previewContent] at answer
  split at answer
  · rename_i overflows
    exact ⟨(Except.error.inj answer).symm, List.any_eq_true.mp overflows⟩
  · cases answer

/-! ### The changes -/

variable {desk : Desk} {catalog : Catalog}

/-- A table of definitions on which everything works: it has one row for a routine, steps
can be noted, and nothing is denied. -/
structure Desk.Working (desk : Desk) (catalog : Catalog) : Prop where
  shelf : desk.shelf = .table (some catalog)
  distinct : (catalog.map Routine.identity).Nodup
  orderly : desk.ledger.Orderly
  outage : desk.outage = {}

namespace Desk.Working

variable (working : desk.Working catalog)

include working

/-- Steps can be noted at a working desk, whose ledger has a table of events. -/
theorem noting : desk.Noting :=
  ⟨working.orderly, by rw [working.outage], by rw [working.outage]⟩

/-- A working desk lists the routines of its table. -/
theorem routines : desk.routines = .ok (sortRoutines catalog) := by
  rw [Desk.routines, working.shelf]

/-- A routine of the table is read as it is listed. -/
theorem routine? (member : routine ∈ sortRoutines catalog) :
    catalog.routine? routine.identity = some routine :=
  Catalog.routine?_eq_some working.distinct (Folder.mem_sortRoutines.mp member)

/-- A listed routine of a working desk is read. -/
theorem read (member : routine ∈ sortRoutines catalog) :
    desk.read routine.identity = .ok routine.text := by
  simp only [Desk.read, working.shelf, working.routine? member, Option.map_some]

/-- A listed routine of a working desk has its text there. -/
theorem text? (member : routine ∈ sortRoutines catalog) :
    desk.text? routine.identity = some routine.text := by
  simp only [Desk.text?, working.shelf, working.routine? member, Option.map_some]

/-- No routine is chosen twice, because none is in the table twice. -/
theorem nodup_chosen (scope : Scope) : (scope.chosen (sortRoutines catalog)).Nodup := by
  have all : ((sortRoutines catalog).map Routine.identity).Nodup := by
    rw [map_sortRoutines]
    exact (List.mergeSort_perm _ _).nodup_iff.mpr working.distinct
  exact all.sublist (List.filter_sublist.map Routine.identity)

/-- What is read decides what is said about the change: whether a rule overflows on the text, and
whether there is anything to renew. Nothing else can go wrong at a desk that works. -/
theorem verdict (member : routine ∈ sortRoutines catalog) (backup : Bool) :
    (Outcome.ofAnswer routine.identity
      (desk.verdict { rules, backup, preview := false } routine.identity)).unnumbered =
        routine.committed rules := by
  rw [Desk.verdict, working.read member, Routine.committed]
  simp only [working.outage, List.contains_nil, Bool.false_eq_true, if_false]
  by_cases overflows : renewalOverflows rules routine.text = true
  · rw [if_pos overflows, if_pos overflows]
    rfl
  · rw [if_neg overflows, if_neg overflows]
    cases (renew rules routine.text).changed <;> rfl

/-- The text that a change writes is the renewed one, exactly where the forecast says that the
routine is updated. Nothing breaks down and every routine of the listing can be read. -/
theorem newText? (rules : List Rule) (member : routine ∈ sortRoutines catalog) (backup : Bool) :
    desk.newText? { rules, backup, preview := false } routine.identity =
      if (routine.committed rules).fate = .updated then some (renew rules routine.text).text
      else none := by
  rw [Desk.newText?, Desk.writes, Desk.renewal?, working.read member, Routine.committed]
  simp only [working.outage, List.contains_nil, Bool.not_false, Bool.and_true, if_true]
  cases renewalOverflows rules routine.text with
  | true => rfl
  | false => cases altered : (renew rules routine.text).changed <;> simp

end Desk.Working

/-- A run has dealt with the listed routines one by one: each of them is updated, left
alone, or failed because of a rule that cannot be applied. The updated ones have the
renewed text, and all others the text that they had. -/
structure CarriedOut (rules : List Rule) (listed : List Routine) (desk : Desk) (summary : Summary)
    (after : Desk) : Prop where
  tallied : summary.Tallied
  outcomes : summary.outcomes.map Outcome.unnumbered = listed.map (Routine.committed rules)
  renewed : ∀ outcome ∈ summary.outcomes, outcome.fate = .updated →
    ∃ old, desk.text? outcome.identity = some old ∧
      after.text? outcome.identity = some (renew rules old).text
  kept : ∀ identity, (∀ outcome ∈ summary.outcomes, outcome.identity = identity →
    outcome.fate ≠ .updated) → after.text? identity = desk.text? identity

namespace CarriedOut

variable {listed : List Routine} {summary : Summary} {after : Desk}

/-- The outcomes of a run that was carried out are those that the previews foretold, one by
one. -/
theorem foretold (carried : CarriedOut rules listed desk summary after)
    (applicable : ∀ routine ∈ listed, renewalOverflows rules routine.text = false) :
    List.Forall₂ Outcome.Foretold (listed.map (Routine.previewed rules)) summary.outcomes := by
  have same : List.Forall₂ (· = ·) (listed.map (Routine.committed rules))
      (summary.outcomes.map Outcome.unnumbered) := by
    rw [List.forall₂_eq_eq_eq]
    exact carried.outcomes.symm
  rw [List.forall₂_map_left_iff, List.forall₂_map_right_iff] at same
  rw [List.forall₂_map_left_iff]
  refine List.Forall₂.imp ?_ ((List.forall₂_and_left _ _).mpr ⟨applicable, same⟩)
  rintro routine outcome ⟨fits, committed⟩
  exact Routine.foretold fits committed.symm

/-- A routine that cannot be renewed makes the run report a failure, because its result says so
and is counted with the others. -/
theorem failed_ne_zero (carried : CarriedOut rules listed desk summary after)
    (overflows : ∃ routine ∈ listed, renewalOverflows rules routine.text = true) :
    summary.failed ≠ 0 := by
  obtain ⟨routine, member, overflow⟩ := overflows
  have reported : routine.committed rules ∈ summary.outcomes.map Outcome.unnumbered := by
    rw [carried.outcomes]
    exact List.mem_map_of_mem member
  obtain ⟨outcome, inSummary, same⟩ := List.mem_map.mp reported
  have fate : outcome.fate = .failed := by
    rw [Routine.committed, if_pos overflow] at same
    exact congrArg Outcome.fate same
  rw [carried.tallied.failed, ne_eq, List.countP_eq_zero]
  intro none
  exact none outcome inSummary (by simp [fate])

end CarriedOut

/-- A run over a table deals with the routines that it has listed. Each of them is changed as
if it were alone, because no other change touches its row, and the counts are those of the
results. -/
theorem Desk.Working.carriedOut (working : desk.Working catalog) (rules : List Rule) (scope : Scope)
    (backup : Bool) (size : Option Nat) :
    ∃ summary after, (changeRun { rules, backup, preview := false } scope size).perform desk =
        (.ok summary, after) ∧
      CarriedOut rules (scope.pick (sortRoutines catalog)) desk summary after := by
  let manner : Manner := { rules, backup, preview := false }
  obtain ⟨lines, performed⟩ := working.noting.perform_changeRun working.routines manner scope size
  obtain ⟨foreseen, _, shelf⟩ := foreseen working.shelf manner (working.nodup_chosen scope)
  have listed : ∀ {routine}, routine ∈ scope.pick (sortRoutines catalog) →
      routine ∈ sortRoutines catalog := fun member => (List.mem_filter.mp member).1
  have outcomes : (desk.outcomes manner (scope.chosen (sortRoutines catalog))).map
      Outcome.unnumbered = (scope.pick (sortRoutines catalog)).map (Routine.committed rules) := by
    rw [foreseen, Scope.chosen, List.map_map]
    exact List.map_congr_left fun routine member => working.verdict (listed member) backup
  -- The text of a routine behind the run, whether it was listed or not.
  have behind (identity : Identity) :
      ((desk.changedAll manner (scope.chosen (sortRoutines catalog))).logged lines).text? identity =
        (catalog.routine? identity).map fun routine =>
          (desk.renewed manner (scope.chosen (sortRoutines catalog)) routine).text := by
    rw [Desk.logged_text?, text?_renewed shelf, Option.bind_some]
  have named {routine : Routine} (member : routine ∈ scope.pick (sortRoutines catalog)) :
      routine.identity ∈ scope.chosen (sortRoutines catalog) := List.mem_map_of_mem member
  refine ⟨_, _, performed, Summary.tallied_ofOutcomes .., ?_, ?_, ?_⟩
  · rw [Summary.outcomes_ofOutcomes, outcomes]
  · intro outcome member updated
    rw [Summary.outcomes_ofOutcomes] at member
    have reported : outcome.unnumbered ∈ _ := List.mem_map_of_mem member
    rw [outcomes] at reported
    obtain ⟨routine, picked, same⟩ := List.mem_map.mp reported
    have fate : (routine.committed rules).fate = .updated := by
      rw [same]
      exact updated
    have owner : outcome.identity = routine.identity := by
      rw [← routine.committed_identity rules, same]
      rfl
    have text := working.newText? rules (listed picked) backup
    rw [if_pos fate] at text
    refine ⟨routine.text, ?_, ?_⟩
    · rw [owner, working.text? (listed picked)]
    · rw [owner, behind, working.routine? (listed picked), Option.map_some, Desk.renewed,
        if_pos (named picked), text, Option.getD_some]
  · intro identity none
    rw [behind, Desk.text?, working.shelf]
    refine Option.map_congr ?_
    intro routine found
    have owner : routine.identity = identity := Catalog.routine?_identity found
    by_cases chosen : identity ∈ scope.chosen (sortRoutines catalog)
    · obtain ⟨other, picked, same⟩ := List.mem_map.mp chosen
      have alike : other = routine := by
        have first := working.routine? (listed picked)
        rw [same, found] at first
        exact (Option.some.inj first).symm
      subst alike
      have reported : other.committed rules ∈ _ := List.mem_map_of_mem picked
      rw [← outcomes] at reported
      obtain ⟨outcome, inSummary, committed⟩ := List.mem_map.mp reported
      have idle : (other.committed rules).fate ≠ .updated := by
        rw [← committed]
        refine none outcome (by rwa [Summary.outcomes_ofOutcomes]) ?_
        rw [← same, ← other.committed_identity rules, ← committed]
        rfl
      have text := working.newText? rules (listed picked) backup
      rw [if_neg idle] at text
      rw [Desk.renewed, if_pos (named picked), text, Option.getD_none]
    · rw [Desk.renewed, owner, if_neg chosen]

end SqlRenewal
