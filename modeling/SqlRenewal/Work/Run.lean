import SqlRenewal.Association
import SqlRenewal.Work.Batch

/-!
# Runs over the definitions

A run looks at the routines of a scope that have deprecated syntax: to show what
would change, to change them, or to change them in batches. Beside these there
are the run that takes one change back, and the cleaning of the ledger.
-/
namespace SqlRenewal

/-- The kinds of runs. -/
inductive Mode where
  | preview
  | apply
  | batch
  | rollback
deriving DecidableEq, Repr

/-- The name of a kind of run. -/
def Mode.name : Mode → String
  | .preview => "preview"
  | .apply => "apply"
  | .batch => "batch"
  | .rollback => "rollback"

/-- What only some kinds of runs report. -/
inductive Details where
  | nothing
  /-- The shapes of legacy statements, for the routines that have any. -/
  | forms (byName : List (Text × List Form))
  | milestones (milestones : List Milestone)
deriving DecidableEq, Repr

/-- The results of a run, and the numbers that it has counted. -/
structure Summary where
  mode : Mode
  preview : Bool
  /-- The number of routines that the run looked at. -/
  examined : Nat := 0
  /-- The number of routines with a new text. -/
  changed : Nat := 0
  /-- The number of routines that failed. -/
  failed : Nat := 0
  outcomes : List Outcome := []
  details : Details := .nothing
deriving DecidableEq, Repr

namespace Summary

/-- The number of routines that did not fail. -/
def succeeded (summary : Summary) : Nat :=
  summary.examined - summary.failed

/-- The summary with what a preview says about one more routine. -/
def announce (summary : Summary) (outcome : Outcome) : Summary :=
  { summary with
    examined := summary.examined + 1
    changed := if outcome.fate.isChange then summary.changed + 1 else summary.changed
    outcomes := summary.outcomes ++ [outcome] }

/-- What a preview comes to. -/
def ofPreview (outcomes : List Outcome) (forms : List (Text × List Form)) : Summary :=
  { outcomes.foldl announce { mode := .preview, preview := true } with details := .forms forms }

/-- What a run reports of the one change that it has taken back. -/
def ofRollback (identity : Identity) (record : Record) : Summary where
  mode := .rollback
  preview := false
  examined := 1
  changed := 1
  outcomes := [{ identity, fate := .updated, backup := some record.id }]

/-- What a run reports of its batch. -/
def ofBatch (mode : Mode) (preview : Bool) (batch : Batch) : Summary where
  mode := mode
  preview := preview
  examined := batch.processed
  changed := batch.changed
  failed := batch.failed
  outcomes := batch.outcomes

end Summary

/-- The routines of a scope that have deprecated syntax. -/
def candidates (scope : Scope) : Action (List Identity) := do
  return (← listRoutines scope true).map Routine.identity

/-- What a preview says about one routine. -/
def previewRoutine (rules : List Rule) (routine : Routine) : Action Outcome := do
  let report ← renewLogged rules routine.text
  return {
    identity := routine.identity
    fate := if report.changed then .previewed else .unchanged
    categories := foundCategories routine.text
    flags := report.flags }

/-- The shapes of legacy statements by the names of routines. -/
def formsByName (routines : List Routine) : List (Text × List Form) :=
  routines.foldl
    (fun forms routine =>
      let found := foundForms routine.text
      if found = [] then forms else assign routine.identity.qualified found forms)
    []

/-- Shows what would change, and changes nothing. -/
def previewRun (rules : List Rule) (scope : Scope) : Action Summary := do
  let routines ← listRoutines scope true
  let outcomes ← routines.mapM (previewRoutine rules)
  return .ofPreview outcomes (formsByName routines)

/-- Changes the routines of a scope. -/
def applyRun (manner : Manner) (scope : Scope) : Action Summary := do
  let batch ← changeAll manner 0 (← candidates scope)
  return .ofBatch .apply manner.preview batch

/-- Changes the routines of a scope, with progress reported in between. -/
def batchRun (manner : Manner) (size : Int) (scope : Scope) : Action Summary := do
  let identities ← candidates scope
  let preview := if manner.preview then "True" else "False"
  say .info .runs (s!"Starting batch modernization: {identities.length} unit(s), " ++
    s!"batch size {size}, preview={preview}")
  let batch ← changeAll manner size identities
  return { Summary.ofBatch .batch manner.preview batch with
    details := .milestones batch.milestones }

/-- Takes one change back. -/
def rollbackRun (identity : Identity) (choice : Choice) : Action Summary := do
  return .ofRollback identity (← rollBack identity choice)

end SqlRenewal
