import SqlRenewal.Proofs.Work.Verdict
import SqlRenewal.Work.Run

/-!
# What batches and runs come to

A batch is one change after the other, each at the desk that the last one left, and its
answer is put together from theirs. A run over a scope is a batch of the routines that it
finds in the listing. A listing that fails ends the run before anything is changed.
-/
namespace SqlRenewal

variable {desk : Desk} {identity : Identity}

/-! ### Batches -/

/-- What a change comes to does not depend on the log. -/
theorem Desk.changed_logged (manner : Manner) (identity : Identity) (lines : List LogLine) :
    (desk.logged lines).changed manner identity = (desk.changed manner identity).logged lines := by
  have same : (desk.logged lines).newText? manner identity = desk.newText? manner identity := rfl
  have drafted : (desk.logged lines).draft? manner identity = desk.draft? manner identity := rfl
  rw [Desk.changed, same, drafted, Desk.changed]
  cases desk.newText? manner identity <;> rfl

/-- What a change answers. -/
def Desk.answer (desk : Desk) (manner : Manner) (identity : Identity) : Except Failure Outcome :=
  (desk.verdict manner identity).map fun outcome =>
    { outcome with backup := desk.number? manner identity }

/-- The result of a change. -/
def Desk.outcome (desk : Desk) (manner : Manner) (identity : Identity) : Outcome :=
  .ofAnswer identity (desk.answer manner identity)

/-- The result without the number of its backup. -/
def Outcome.unnumbered (outcome : Outcome) : Outcome :=
  { outcome with backup := none }

/-- Apart from its number, a result is decided by the text that is read. -/
theorem Desk.unnumbered_outcome (desk : Desk) (manner : Manner) (identity : Identity) :
    (desk.outcome manner identity).unnumbered =
      (Outcome.ofAnswer identity (desk.verdict manner identity)).unnumbered := by
  rw [Desk.outcome, Desk.answer]
  cases desk.verdict manner identity <;> rfl

/-- The outcome of a routine is about that routine, also where it failed. A verdict names it, and
a failure is entered under the name that was asked for. -/
@[simp] theorem Desk.outcome_identity (desk : Desk) (manner : Manner) (identity : Identity) :
    (desk.outcome manner identity).identity = identity := by
  rw [Desk.outcome, Desk.answer]
  cases answer : desk.verdict manner identity with
  | error failure => rfl
  | ok outcome =>
    have named : outcome.identity = identity := Desk.verdict_identity answer
    exact named

/-- The results of changes, each at the desk that the last one left. -/
def Desk.outcomes (desk : Desk) (manner : Manner) : List Identity → List Outcome
  | [] => []
  | identity :: rest =>
    desk.outcome manner identity :: (desk.changed manner identity).outcomes manner rest

/-- The desk behind changes. -/
def Desk.changedAll (desk : Desk) (manner : Manner) : List Identity → Desk
  | [] => desk
  | identity :: rest => (desk.changed manner identity).changedAll manner rest

/-- Lines of the log have no part in what comes of routines. No verdict reads the log, and every
desk in between has the lines as well. -/
theorem Desk.outcomes_logged (manner : Manner) (identities : List Identity) (lines : List LogLine) :
    (desk.logged lines).outcomes manner identities = desk.outcomes manner identities := by
  induction identities generalizing desk with
  | nil => rfl
  | cons identity rest inductionHypothesis =>
    rw [Desk.outcomes, Desk.changed_logged, inductionHypothesis, Desk.outcomes]
    rfl

/-- Lines of the log stay before those of a batch. -/
theorem Desk.changedAll_logged (manner : Manner) (identities : List Identity)
    (lines : List LogLine) : (desk.logged lines).changedAll manner identities =
      (desk.changedAll manner identities).logged lines := by
  induction identities generalizing desk with
  | nil => rfl
  | cons identity rest inductionHypothesis =>
    rw [Desk.changedAll, Desk.changed_logged, inductionHypothesis, Desk.changedAll]

/-- The calls of a batch of changes come to the results and to the desk of its changes: each
call is decided at the desk that the last one left. -/
theorem Desk.Noting.calls (noting : desk.Noting) {manner : Manner} {identities : List Identity}
    {answers : List (Except Failure Outcome)} {after : Desk}
    (calls : Calls (changeRoutine manner) desk identities answers after) :
    List.zipWith Outcome.ofAnswer identities answers = desk.outcomes manner identities ∧
      ∃ lines, after = (desk.changedAll manner identities).logged lines := by
  induction calls with
  | done lines => exact ⟨rfl, lines, rfl⟩
  | @call desk changed after identity rest answer answers lines called later inductionHypothesis =>
    obtain ⟨more, performed⟩ := (noting.logged lines).perform_changeRoutine manner identity
    rw [called, Desk.changed_logged, Desk.logged_logged, Prod.mk.injEq] at performed
    obtain ⟨answered, rfl⟩ := performed
    obtain ⟨results, last, ended⟩ := inductionHypothesis ((noting.changed manner identity).logged _)
    rw [Desk.outcomes_logged] at results
    rw [Desk.changedAll_logged, Desk.logged_logged] at ended
    refine ⟨?_, _, ended⟩
    rw [List.zipWith_cons_cons, results, answered]
    rfl

/-- A batch puts the results of its changes together. The calls of the loop are followed one by
one, and what they answer is what the desk says of each routine. -/
theorem Desk.Noting.perform_changeAll (noting : desk.Noting) (manner : Manner) (size : Nat)
    (identities : List Identity) :
    ∃ lines, (changeAll manner size identities).perform desk =
      (.ok (.ofOutcomes size (desk.outcomes manner identities)),
        (desk.changedAll manner identities).logged lines) := by
  obtain ⟨answers, after, calls, performed⟩ :=
    perform_workAll (changeRoutine manner) (Int.natCast_nonneg size) identities desk
  obtain ⟨results, lines, rfl⟩ := noting.calls calls
  refine ⟨lines, ?_⟩
  rw [changeAll, performed,
    Batch.ofCalls_eq calls.length_eq (calls.answersFor (changeRoutine_answersFor manner)), results,
    Int.toNat_natCast]

/-! ### Runs -/

/-- The listed routines. -/
def Desk.routines (desk : Desk) : Except Failure (List Routine) :=
  match desk.shelf with
  | .table none => .error .storage
  | .table (some catalog) => .ok (sortRoutines catalog)
  | .folder root => Folder.routines desk.files root
  | .nowhere => .ok []

/-- The routines of a scope that have deprecated syntax. -/
def Scope.pick (scope : Scope) (routines : List Routine) : List Routine :=
  routines.filter fun routine => scope.admits routine.identity && isLegacy routine.text

/-- A listing is that of the desk, with the routines of the scope picked out, and changes nothing.
The cases are the kinds of shelves. -/
theorem perform_listRoutines (scope : Scope) (desk : Desk) :
    (listRoutines scope true).perform desk = (desk.routines.map scope.pick, desk) := by
  have all : allRoutines.perform desk = (desk.routines, desk) := by
    rw [allRoutines, Action.perform_bind_ok (Action.perform_get desk), Desk.routines]
    cases desk.shelf with
    | table table => cases table <;> rfl
    | folder root =>
      simp only [Action.perform_bind_ok (Action.perform_get desk)]
      cases Folder.routines desk.files root <;> rfl
    | nowhere => rfl
  rw [listRoutines]
  cases listed : desk.routines with
  | error failure => rw [Action.perform_bind_error (all.trans (by rw [listed]))]; rfl
  | ok routines => rw [Action.perform_bind_ok (all.trans (by rw [listed]))]; rfl

/-- The names of the routines that a run over a scope works on. -/
def Scope.chosen (scope : Scope) (routines : List Routine) : List Identity :=
  (scope.pick routines).map Routine.identity

/-- The candidates of a scope are its routines by name, if the desk can list them. -/
theorem perform_candidates (scope : Scope) (desk : Desk) :
    (candidates scope).perform desk = (desk.routines.map scope.chosen, desk) := by
  have listed := perform_listRoutines scope desk
  rw [candidates]
  cases routines : desk.routines with
  | error failure =>
    rw [routines] at listed
    exact Action.perform_bind_error listed _
  | ok found =>
    rw [routines] at listed
    exact Action.perform_bind_ok listed _

/-- Changes the routines of a scope, in batches if a size is given. -/
def changeRun (manner : Manner) (scope : Scope) : Option Nat → Action Summary
  | none => applyRun manner scope
  | some size => batchRun manner size scope

/-- What a run over a scope reports. -/
def Summary.ofOutcomes (manner : Manner) (outcomes : List Outcome) : Option Nat → Summary
  | none => .ofBatch .apply manner.preview (.ofOutcomes 0 outcomes)
  | some size =>
    { Summary.ofBatch .batch manner.preview (.ofOutcomes size outcomes) with
      details := .milestones (Batch.ofOutcomes size outcomes).milestones }

/-- A summary of outcomes has them in their order. -/
@[simp] theorem Summary.outcomes_ofOutcomes (manner : Manner) (outcomes : List Outcome)
    (size : Option Nat) : (Summary.ofOutcomes manner outcomes size).outcomes = outcomes := by
  cases size with
  | none => exact Batch.outcomes_ofOutcomes 0 outcomes
  | some size => exact Batch.outcomes_ofOutcomes size outcomes

/-- The numbers that a summary has are those of its results. -/
structure Summary.Tallied (summary : Summary) : Prop where
  examined : summary.examined = summary.outcomes.length
  changed : summary.changed = summary.outcomes.countP fun outcome => outcome.fate.isChange
  failed : summary.failed = summary.outcomes.countP fun outcome => outcome.fate == .failed

/-- A run hands on what its batch has counted. -/
theorem Summary.tallied_ofOutcomes (manner : Manner) (outcomes : List Outcome) (size : Option Nat) :
    (Summary.ofOutcomes manner outcomes size).Tallied := by
  constructor
  all_goals cases size <;> simp only [ofOutcomes, ofBatch, Batch.ofOutcomes_eq]

/-- A listing that fails ends a run at once, with or without a size: both ask for the candidates
first. -/
theorem perform_changeRun_error {failure : Failure} (unlisted : desk.routines = .error failure)
    (manner : Manner) (scope : Scope) (size : Option Nat) :
    (changeRun manner scope size).perform desk = (.error failure, desk) := by
  have chosen := perform_candidates scope desk
  rw [unlisted] at chosen
  cases size with
  | none => exact Action.perform_bind_error chosen _
  | some size => exact Action.perform_bind_error chosen _

/-- A run over a scope changes what it has listed, and only that: the listing comes first, and
every change of the batch is one of its routines. -/
theorem Desk.Noting.perform_changeRun (noting : desk.Noting) {routines : List Routine}
    (listed : desk.routines = .ok routines) (manner : Manner) (scope : Scope) (size : Option Nat) :
    ∃ lines, (changeRun manner scope size).perform desk =
      (.ok (.ofOutcomes manner (desk.outcomes manner (scope.chosen routines)) size),
        (desk.changedAll manner (scope.chosen routines)).logged lines) := by
  have chosen := perform_candidates scope desk
  rw [listed] at chosen
  cases size with
  | none =>
    obtain ⟨lines, performed⟩ := noting.perform_changeAll manner 0 (scope.chosen routines)
    refine ⟨lines, ?_⟩
    rw [changeRun, applyRun, Action.perform_bind_ok chosen]
    exact Action.perform_bind_ok performed _
  | some size =>
    rw [changeRun, batchRun, Action.perform_bind_ok chosen,
      Action.perform_bind_ok (perform_say _ _ _ _)]
    obtain ⟨lines, performed⟩ :=
      (noting.logged _).perform_changeAll manner size (scope.chosen routines)
    rw [Desk.outcomes_logged, Desk.changedAll_logged, Desk.logged_logged] at performed
    rw [Action.perform_bind_ok performed]
    exact ⟨_, rfl⟩

end SqlRenewal
