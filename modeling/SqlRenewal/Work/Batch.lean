import SqlRenewal.Work.Change

/-!
# Changing many routines

Routines are worked on one after the other, and one that fails does not stop the
others. Progress is reported after every so many routines, and after the last.
What is done with a routine is a parameter; a batch of changes is one instance.
-/
namespace SqlRenewal

/-- A report on how far a batch has come. -/
structure Milestone where
  number : Nat
  processed : Nat
  total : Nat
  failed : Nat
deriving DecidableEq, Repr

/-- The part that is done, in whole percent. -/
def Milestone.percent (milestone : Milestone) : Nat :=
  if milestone.total = 0 then 100 else milestone.processed * 100 / milestone.total

/-- The result of a piece of work, where a failure is only noted. -/
def Outcome.ofAnswer (identity : Identity) : Except Failure Outcome → Outcome
  | .ok outcome => outcome
  | .error failure =>
    { identity, fate := .failed, error := some (failure.kind ++ ": " ++ failure.shown) }

/-- The results of a batch so far, out of a total number of routines. The numbers are
counted along with the results. -/
structure Batch where
  total : Nat
  /-- The number of routines worked on. -/
  processed : Nat := 0
  /-- The number of routines with a new text. -/
  changed : Nat := 0
  /-- The number of routines that failed. -/
  failed : Nat := 0
  outcomes : List Outcome := []
  /-- The number of the next report on progress. -/
  nextReport : Nat := 1
  milestones : List Milestone := []
deriving DecidableEq, Repr

namespace Batch

/-- The results that failed. -/
def failures (batch : Batch) : List Outcome :=
  batch.outcomes.filter fun outcome => outcome.fate == .failed

/-- The number of routines that did not fail. -/
def succeeded (batch : Batch) : Nat :=
  batch.processed - batch.failed

/-- The batch with the answer about one more routine. -/
def enter (batch : Batch) (identity : Identity) (answer : Except Failure Outcome) : Batch :=
  let outcome := Outcome.ofAnswer identity answer
  { batch with
    processed := batch.processed + 1
    changed := if outcome.fate.isChange then batch.changed + 1 else batch.changed
    failed := if answer.isOk then batch.failed else batch.failed + 1
    outcomes := batch.outcomes ++ [outcome] }

/-- Progress is due after every `size` routines, and after the last one. -/
def isDue (size : Nat) (batch : Batch) : Bool :=
  (size != 0 && batch.processed % size == 0) || batch.processed == batch.total

/-- The next report on progress. -/
def milestone (batch : Batch) : Milestone :=
  ⟨batch.nextReport, batch.processed, batch.total, batch.failed⟩

/-- The batch behind its next report. -/
def report (batch : Batch) : Batch :=
  { batch with
    nextReport := batch.nextReport + 1
    milestones := batch.milestones ++ [batch.milestone] }

end Batch

/-- Works on a routine, and answers with the failure instead of stopping at it. -/
def attempt (work : Identity → Action Outcome) (identity : Identity) :
    Action (Except Failure Outcome) :=
  tryCatch (Except.ok <$> work identity) fun failure => do
    say .warning .changes ("ERROR processing " ++ String.ofList identity.qualified ++ ": " ++
      (failure.kind ++ ": " ++ failure.shown))
    return .error failure

/-- Reports progress if it is due. -/
def reportProgress (size : Nat) (batch : Batch) : Action Batch := do
  if batch.isDue size then
    let milestone := batch.milestone
    say .info .changes (s!"Batch {milestone.number} completed: {milestone.processed}/" ++
      s!"{milestone.total} units processed ({milestone.percent}%)")
    return batch.report
  else return batch

/-- Works on the rest of a batch. -/
def continueBatch (work : Identity → Action Outcome) (size : Nat) (batch : Batch) :
    List Identity → Action Batch
  | [] => return batch
  | identity :: rest => do
    let answer ← attempt work identity
    let batch ← reportProgress size (batch.enter identity answer)
    continueBatch work size batch rest

/-- Works on routines in their order. A size of zero reports progress only at the
end. -/
def workAll (work : Identity → Action Outcome) (size : Int) (identities : List Identity) :
    Action Batch := do
  if size < 0 then throw (.batchSize size)
  let batch ← continueBatch work size.toNat { total := identities.length } identities
  say .info .changes (s!"Batch modernization complete: processed={batch.processed} " ++
    s!"succeeded={batch.succeeded} changed={batch.changed} failed={batch.failed}")
  return batch

/-- Changes routines in their order. -/
def changeAll (manner : Manner) : Int → List Identity → Action Batch :=
  workAll (changeRoutine manner)

end SqlRenewal
