import Mathlib.Algebra.Order.Floor.Div
import SqlRenewal.Proofs.Work.Sweep

/-!
# The accounts of a batch

A batch calls one change after the other. Each call answers or fails, for reasons that lie
with the definitions and with the ledger; which of the calls fail, and what they leave
behind, is a parameter here. The batch gives every routine its result, in the order in which
they were named, counts the results, and reports on its progress after every so many
routines and after the last one.
-/
namespace SqlRenewal

/-! ### Calls -/

/-- A way of working on one routine. It may fail at any desk; where it answers, it answers
for the routine that it was given, and a failure is none of its answers. -/
structure Worker where
  work : Identity → Action Outcome
  answers : ∀ identity desk outcome after,
    (work identity).perform desk = (.ok outcome, after) →
      outcome.identity = identity ∧ outcome.fate ≠ .failed

namespace Worker

variable {worker : Worker} {desk after : Desk} {identities : List Identity}
  {answers : List (Except Failure Outcome)}

/-- The answers of a worker are about the routines that it was given. -/
theorem answersFor (worker : Worker) (identity : Identity) (desk : Desk) :
    AnswersFor identity ((worker.work identity).perform desk).1 :=
  fun _ answered => worker.answers identity desk _ _ (Prod.ext answered rfl)

/-- The call failed. -/
def failedCall : Except Failure Outcome → Bool
  | .ok _ => false
  | .error _ => true

/-- Each call has the result that belongs to its routine, by induction over the calls: an answer
for a routine names it, and a failure is entered under its name. -/
theorem identities_eq (calls : Calls worker.work desk identities answers after) :
    (List.zipWith Outcome.ofAnswer identities answers).map Outcome.identity = identities := by
  induction calls with
  | done lines => rfl
  | @call desk _ _ identity _ _ _ lines called _ inductionHypothesis =>
    have first := worker.answersFor identity (desk.logged lines)
    rw [called] at first
    rw [List.zipWith_cons_cons, List.map_cons, inductionHypothesis, first.identity_eq]

/-- A result failed exactly if its call did, by induction over the calls. No answer of the work
itself has that fate. -/
theorem failed_eq (calls : Calls worker.work desk identities answers after) :
    (List.zipWith Outcome.ofAnswer identities answers).map (fun outcome => outcome.fate == .failed) =
      answers.map failedCall := by
  induction calls with
  | done lines => rfl
  | @call desk _ _ identity _ answer _ lines called _ inductionHypothesis =>
    have first := worker.answersFor identity (desk.logged lines)
    rw [called] at first
    have counted : failedCall answer = !answer.isOk := by cases answer <;> rfl
    rw [List.zipWith_cons_cons, List.map_cons, List.map_cons, inductionHypothesis, first.failed_eq, counted]

end Worker

/-! ### Changes as calls -/

/-- Changing routines in a manner, with all that can fail about it. -/
def Manner.worker (manner : Manner) : Worker where
  work := changeRoutine manner
  answers identity desk outcome _ ended :=
    changeRoutine_answersFor manner identity desk outcome (congrArg Prod.fst ended)

/-! ### Progress -/

namespace Batch

variable {size : Nat} {outcomes : List Outcome}

/-- A whole batch is reported on as often as intervals are begun: once for each full interval, and
once more for a rest. -/
theorem reports_self (positive : 0 < size) (total : Nat) : reports size total total = total ⌈/⌉ size := by
  rw [Nat.ceilDiv_eq_add_pred_div, reports]
  obtain ⟨quotient, rest, small, rfl⟩ : ∃ quotient rest, rest < size ∧ total = size * quotient + rest :=
    ⟨total / size, total % size, Nat.mod_lt _ positive, (Nat.div_add_mod total size).symm⟩
  rw [Nat.mul_add_mod, Nat.mod_eq_of_lt small, Nat.mul_add_div positive, Nat.div_eq_of_lt small]
  rcases Nat.eq_zero_or_pos rest with rfl | some
  · have start : size * quotient + 0 + size - 1 = size * quotient + (size - 1) := by omega
    rw [start, Nat.mul_add_div positive, Nat.div_eq_of_lt (by omega)]
    simp
  · have start : size * quotient + rest + size - 1 = size * (quotient + 1) + (rest - 1) := by
      rw [Nat.mul_succ]
      omega
    rw [start, Nat.mul_add_div positive, Nat.div_eq_of_lt (by omega)]
    simp [Nat.ne_of_gt some]

/-- The last report is made when all is done, because the intervals together cover the batch. -/
theorem reach_last {total index : Nat} (last : index + 1 = reports size total total) :
    reach size total index = total := by
  rw [reach]
  split
  · rfl
  · rename_i positive
    rw [reports_self (Nat.pos_of_ne_zero positive)] at last
    have covered : total ≤ size * (total ⌈/⌉ size) :=
      le_smul_ceilDiv (Nat.pos_of_ne_zero positive)
    rw [← last, Nat.mul_comm] at covered
    exact Nat.min_eq_right covered

/-- The share that a report tells is that of the outcomes which it reaches, rounded down: what has
been processed then is as long as the prefix. -/
theorem percent_due (inside : 0 < outcomes.length) (index : Nat) :
    (due size outcomes index).percent =
      100 * reach size outcomes.length index / outcomes.length := by
  rw [Milestone.percent, due, if_neg (Nat.ne_of_gt inside), Nat.mul_comm]

/-- The report of an index is the one that was due. Reports are made for all numbers below their
count, in order. -/
theorem getElem?_milestones {index : Nat} {milestone : Milestone}
    (found : (ofOutcomes size outcomes).milestones[index]? = some milestone) :
    index < reports size outcomes.length outcomes.length ∧ milestone = due size outcomes index := by
  rw [ofOutcomes, upTo, List.getElem?_map] at found
  obtain ⟨number, listed, rfl⟩ := Option.map_eq_some_iff.mp found
  obtain ⟨bound, rfl⟩ := List.getElem?_eq_some_iff.mp listed
  rw [List.length_range] at bound
  exact ⟨bound, by rw [List.getElem_range]⟩

/-- Without routines there is nothing to report on. -/
theorem length_pos_of_report {index : Nat}
    (made : index < reports size outcomes.length outcomes.length) : 0 < outcomes.length := by
  refine Nat.pos_of_ne_zero fun none => ?_
  rw [none] at made
  simp [reports] at made

/-- The last report says that all is done: it is the one of the last index, and reaches the end of
the batch. -/
theorem percent_getLast {milestone : Milestone}
    (last : (ofOutcomes size outcomes).milestones.getLast? = some milestone) :
    milestone.percent = 100 := by
  rw [List.getLast?_eq_getElem?] at last
  obtain ⟨made, rfl⟩ := getElem?_milestones last
  have inside := length_pos_of_report made
  rw [percent_due inside, reach_last, Nat.mul_div_cancel _ inside]
  have count : (ofOutcomes size outcomes).milestones.length =
      reports size outcomes.length outcomes.length := by
    rw [ofOutcomes, upTo, List.length_map, List.length_range]
  rw [count] at made ⊢
  omega

end Batch

/-! ### Accounts -/

/-- What a batch reports of the calls that it made, with a report on progress after every
`size` routines. -/
structure Batch.Accounts (size : Nat) (identities : List Identity)
    (answers : List (Except Failure Outcome)) (batch : Batch) : Prop where
  total : batch.total = identities.length
  processed : batch.processed = identities.length
  /-- The results are in the order of the routines, each with its own. -/
  order : batch.outcomes.map Outcome.identity = identities
  /-- A call that answers gives its result, and one that fails a result that says so. -/
  results : batch.outcomes = List.zipWith Outcome.ofAnswer identities answers
  failed : batch.failed = batch.outcomes.countP fun outcome => outcome.fate == .failed
  raised : batch.failed = answers.countP Worker.failedCall
  changed : batch.changed = batch.outcomes.countP fun outcome =>
    outcome.fate == .previewed || outcome.fate == .updated || outcome.fate == .untracked
  /-- There are as many reports as intervals that have been begun. -/
  intervals : 0 < size → batch.milestones.length = identities.length ⌈/⌉ size
  /-- Each report is about the end of its interval, or of the batch. -/
  reported : 0 < size → ∀ index milestone, batch.milestones[index]? = some milestone →
    milestone.number = index + 1 ∧ milestone.total = identities.length ∧
      milestone.processed = min ((index + 1) * size) identities.length ∧
      milestone.failed = (answers.take milestone.processed).countP Worker.failedCall ∧
      milestone.percent = 100 * milestone.processed / identities.length
  /-- Without intervals there is one report, at the end. -/
  once : size = 0 → identities ≠ [] →
    batch.milestones = [⟨1, identities.length, identities.length, batch.failed⟩]
  idle : identities = [] → batch.milestones = []
  complete : ∀ milestone, batch.milestones.getLast? = some milestone → milestone.percent = 100

/-- Results that come from calls are accounted for. Every counter of such a batch counts the
results, so each equation is about the list of results and of the calls from which they come. -/
theorem Batch.accounts_ofOutcomes {identities : List Identity}
    {answers : List (Except Failure Outcome)} {outcomes : List Outcome} (size : Nat)
    (order : outcomes.map Outcome.identity = identities)
    (results : outcomes = List.zipWith Outcome.ofAnswer identities answers)
    (failed : outcomes.map (fun outcome => outcome.fate == .failed) = answers.map Worker.failedCall) :
    (ofOutcomes size outcomes).Accounts size identities answers := by
  have all : outcomes.length = identities.length := by rw [← order, List.length_map]
  have allFailed : outcomes.countP (fun outcome => outcome.fate == .failed) =
      answers.countP Worker.failedCall := by
    simpa only [List.countP_map, Function.id_comp] using congrArg (List.countP id) failed
  have firstFailed (count : Nat) :
      (outcomes.take count).countP (fun outcome => outcome.fate == .failed) =
        (answers.take count).countP Worker.failedCall := by
    have same := congrArg (fun marks => (marks.take count).countP id) failed
    simpa only [← List.map_take, List.countP_map, Function.id_comp] using same
  refine
    { total := all
      processed := all
      order := (congrArg _ (outcomes_ofOutcomes size outcomes)).trans order
      results := (outcomes_ofOutcomes size outcomes).trans results
      failed := by rw [ofOutcomes_eq]
      raised := by rw [ofOutcomes_eq, allFailed]
      changed := ?_
      intervals := ?_
      reported := ?_
      once := ?_
      idle := ?_
      complete := fun milestone last => percent_getLast last }
  · have alike : (fun outcome : Outcome => outcome.fate.isChange) = fun outcome =>
        outcome.fate == .previewed || outcome.fate == .updated || outcome.fate == .untracked := by
      funext outcome
      cases outcome.fate <;> rfl
    simp only [ofOutcomes_eq, alike]
  · intro positive
    rw [ofOutcomes_eq, List.length_map, List.length_range, reports_self positive, all]
  · intro positive index milestone found
    obtain ⟨made, rfl⟩ := getElem?_milestones found
    have inside := length_pos_of_report made
    have reached : reach size outcomes.length index = min ((index + 1) * size) identities.length := by
      rw [reach, if_neg (Nat.ne_of_gt positive), all]
    refine ⟨rfl, all, reached, firstFailed _, ?_⟩
    rw [percent_due inside, due, ← all]
  · rintro rfl some
    have inside : outcomes.length ≠ 0 := by simpa [all] using some
    have single : reports 0 outcomes.length outcomes.length = 1 := by simp [reports, inside]
    rw [ofOutcomes_eq, single, List.range_one, List.map_singleton, due, reach, if_pos rfl, List.take_length,
      all]
  · rintro rfl
    have none : outcomes.length = 0 := by simpa using all
    rw [ofOutcomes_eq, none]
    simp [reports]

/-- A batch accounts for all its calls, whatever they come to. One with a negative interval is
refused, and then nothing has been called. The counters of the loop are those of its results, and
changes of routines are one kind of work. -/
theorem workAll_accounts (worker : Worker) (size : Int) (identities : List Identity) (desk : Desk) :
    (size < 0 → (workAll worker.work size identities).perform desk = (.error (.batchSize size), desk) ∧
      (Failure.batchSize size).kind = "ValueError") ∧
    (0 ≤ size → ∃ answers batch after, Calls worker.work desk identities answers after ∧
      (workAll worker.work size identities).perform desk = (.ok batch, after) ∧
      batch.Accounts size.toNat identities answers) ∧
    ∀ manner : Manner, workAll manner.worker.work size identities = changeAll manner size identities := by
  refine ⟨?_, ?_, fun manner => rfl⟩
  · intro negative
    exact ⟨perform_workAll_negative worker.work negative identities desk, rfl⟩
  · intro natural
    obtain ⟨answers, after, calls, performed⟩ := perform_workAll worker.work natural identities desk
    rw [Batch.ofCalls_eq calls.length_eq (calls.answersFor worker.answersFor)] at performed
    exact ⟨answers, _, after, calls, performed, Batch.accounts_ofOutcomes size.toNat
      (Worker.identities_eq calls) rfl (Worker.failed_eq calls)⟩

/-- Of three routines the second one fails. Two of them are reported on first, and then all
three. -/
theorem workAll_accounts_half :
    let routine (name : Char) : Identity := ⟨['d'], [name], by decide, List.cons_ne_nil _ _⟩
    let worker : Worker :=
      { work := fun identity =>
          if identity.name = ['q'] then throw .storage else pure { identity, fate := .updated }
        answers := by
          intro identity desk outcome after answered
          split at answered
          · cases answered
          · cases answered
            exact ⟨rfl, Fate.noConfusion⟩ }
    let identities := [routine 'p', routine 'q', routine 'r']
    ∃ answers batch after, Calls worker.work { shelf := .nowhere } identities answers after ∧
      (workAll worker.work 2 identities).perform { shelf := .nowhere } = (.ok batch, after) ∧
      batch.Accounts 2 identities answers ∧ batch.milestones = [⟨1, 2, 3, 1⟩, ⟨2, 3, 3, 1⟩] := by
  intro routine worker identities
  obtain ⟨answers, batch, after, calls, performed, accounts⟩ :=
    (workAll_accounts worker 2 identities { shelf := .nowhere }).2.1 (by decide)
  refine ⟨answers, batch, after, calls, performed, accounts, ?_⟩
  have milestones : ((workAll worker.work 2 identities).perform { shelf := .nowhere }).1.toOption.map
      Batch.milestones = some [⟨1, 2, 3, 1⟩, ⟨2, 3, 3, 1⟩] := by decide +kernel
  rw [performed] at milestones
  exact Option.some.inj milestones

end SqlRenewal
