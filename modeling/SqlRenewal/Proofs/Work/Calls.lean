import SqlRenewal.Proofs.Work.Perform

/-!
# The calls of a batch

A batch calls one piece of work after the other and enters the answers, failures among them.
What becomes of the batch is decided by the calls alone: the counts and the number of the next
report, which are carried along, are those of the results so far, and the reports that have
been made are those that were due. This holds before the first call, and one more answer
keeps it.
-/
namespace SqlRenewal

/-! ### The log -/

section Logged

variable (desk : Desk) (lines : List LogLine)

/-- Lines that are logged in two parts are logged in one. -/
@[simp] theorem Desk.logged_logged (more : List LogLine) :
    (desk.logged lines).logged more = desk.logged (lines ++ more) := by
  simp [Desk.logged]

/-- To log no lines changes nothing. -/
@[simp] theorem Desk.logged_nil : desk.logged [] = desk := by
  simp [Desk.logged]

end Logged

/-! ### Calls -/

/-- The answer is about the routine, and it does not call its own result a failure. -/
def AnswersFor (identity : Identity) (answer : Except Failure Outcome) : Prop :=
  ∀ outcome, answer = .ok outcome → outcome.identity = identity ∧ outcome.fate ≠ .failed

/-- The result of a call is about its routine, also if the call failed. -/
theorem AnswersFor.identity_eq {identity : Identity} {answer : Except Failure Outcome}
    (answers : AnswersFor identity answer) : (Outcome.ofAnswer identity answer).identity = identity := by
  cases answer with
  | ok outcome => exact (answers outcome rfl).1
  | error failure => rfl

/-- The result of a call says that it failed exactly if the call did. -/
theorem AnswersFor.failed_eq {identity : Identity} {answer : Except Failure Outcome}
    (answers : AnswersFor identity answer) :
    ((Outcome.ofAnswer identity answer).fate == .failed) = !answer.isOk := by
  cases answer with
  | ok outcome => exact beq_eq_false_iff_ne.mpr (answers outcome rfl).2
  | error failure => rfl

/-- The calls of a batch, one after the other, and what they answer. Apart from the log, the
desk of each call is the one that the last call left. -/
inductive Calls (work : Identity → Action Outcome) :
    Desk → List Identity → List (Except Failure Outcome) → Desk → Prop where
  | done {desk : Desk} (lines : List LogLine) : Calls work desk [] [] (desk.logged lines)
  | call {desk changed after : Desk} {identity : Identity} {rest : List Identity}
      {answer : Except Failure Outcome} {answers : List (Except Failure Outcome)}
      (lines : List LogLine)
      (called : (work identity).perform (desk.logged lines) = (answer, changed))
      (later : Calls work changed rest answers after) :
      Calls work desk (identity :: rest) (answer :: answers) after

namespace Calls

variable {work : Identity → Action Outcome} {desk after : Desk} {identities : List Identity}
  {answers : List (Except Failure Outcome)}

/-- Calls that begin behind more lines of the log are calls from the desk before them. -/
theorem of_logged {lines : List LogLine}
    (calls : Calls work (desk.logged lines) identities answers after) :
    Calls work desk identities answers after := by
  cases calls with
  | done more =>
    rw [Desk.logged_logged]
    exact .done _
  | call more called later =>
    rw [Desk.logged_logged] at called
    exact .call _ called later

/-- Lines may be logged behind the last call, since the end of the calls allows for any lines. -/
theorem logged (calls : Calls work desk identities answers after) (lines : List LogLine) :
    Calls work desk identities answers (after.logged lines) := by
  induction calls with
  | done more =>
    rw [Desk.logged_logged]
    exact .done _
  | call more called _ inductionHypothesis => exact .call more called inductionHypothesis

/-- Every routine has an answer. -/
theorem length_eq (calls : Calls work desk identities answers after) :
    answers.length = identities.length := by
  induction calls with
  | done lines => rfl
  | call lines called _ inductionHypothesis => rw [List.length_cons, inductionHypothesis, List.length_cons]

/-- Work that always answers for its routine does so in a batch, by induction over the calls, each
on the desk that the ones before it left. -/
theorem answersFor (each : ∀ identity desk, AnswersFor identity ((work identity).perform desk).1)
    (calls : Calls work desk identities answers after) :
    ∀ call ∈ identities.zip answers, AnswersFor call.1 call.2 := by
  induction calls with
  | done lines => simp
  | @call desk _ _ identity _ _ _ lines called _ inductionHypothesis =>
    rw [List.zip_cons_cons, List.forall_mem_cons]
    have first := each identity (desk.logged lines)
    rw [called] at first
    exact ⟨first, inductionHypothesis⟩

end Calls

/-- A piece of work is called once, and what it answers is what the attempt comes to: a failure is
caught, logged and turned into a result, so the attempt never fails. -/
theorem perform_attempt (work : Identity → Action Outcome) (identity : Identity) (desk : Desk) :
    ∃ answer changed lines, (work identity).perform desk = (answer, changed) ∧
      (attempt work identity).perform desk = (.ok answer, changed.logged lines) := by
  rw [attempt, Action.perform_tryCatch]
  cases called : (work identity).perform desk with
  | mk answer changed =>
    cases answer with
    | ok outcome =>
      rw [Action.perform_map_ok called]
      exact ⟨_, changed, [], rfl, by rw [Desk.logged_nil]⟩
    | error failure =>
      rw [Action.perform_map_error called]
      simp only [Action.perform_bind_ok (perform_say _ _ _ _)]
      exact ⟨_, changed, _, rfl, rfl⟩

namespace Batch

/-- The batch with one more answer, and behind a report on progress if one is due. -/
def add (size : Nat) (batch : Batch) (call : Identity × Except Failure Outcome) : Batch :=
  let batch := batch.enter call.1 call.2
  if batch.isDue size then batch.report else batch

/-- The batch behind all its calls. -/
def ofCalls (size : Nat) (identities : List Identity) (answers : List (Except Failure Outcome)) :
    Batch :=
  (identities.zip answers).foldl (add size) { total := identities.length }

end Batch

/-- A report is made if one is due, and then a line is logged; otherwise nothing is done. -/
theorem perform_reportProgress (size : Nat) (batch : Batch) (desk : Desk) :
    ∃ lines, (reportProgress size batch).perform desk =
      (.ok (if batch.isDue size then batch.report else batch), desk.logged lines) := by
  rw [reportProgress]
  split
  · exact ⟨_, rfl⟩
  · exact ⟨[], by rw [Desk.logged_nil]; rfl⟩

/-- The answers of the calls are added to the batch one by one, and a report follows each of them
where one is due. The induction is over the routines, for any batch to begin with. -/
theorem perform_continueBatch (work : Identity → Action Outcome) (size : Nat) (batch : Batch)
    (identities : List Identity) (desk : Desk) :
    ∃ answers after, Calls work desk identities answers after ∧
      (continueBatch work size batch identities).perform desk =
        (.ok ((identities.zip answers).foldl (Batch.add size) batch), after) := by
  induction identities generalizing desk batch with
  | nil =>
    refine ⟨[], desk.logged [], .done [], ?_⟩
    rw [Desk.logged_nil]
    rfl
  | cons identity rest inductionHypothesis =>
    obtain ⟨answer, changed, lines, called, attempted⟩ := perform_attempt work identity desk
    obtain ⟨more, reported⟩ :=
      perform_reportProgress size (batch.enter identity answer) (changed.logged lines)
    obtain ⟨answers, after, calls, continued⟩ := inductionHypothesis
      (batch.add size (identity, answer)) ((changed.logged lines).logged more)
    refine ⟨answer :: answers, after, ?_, ?_⟩
    · rw [← desk.logged_nil] at called
      exact .call [] called calls.of_logged.of_logged
    · rw [continueBatch, Action.perform_bind_ok attempted, Action.perform_bind_ok reported]
      exact continued

/-- A negative size is refused before anything is done. -/
theorem perform_workAll_negative (work : Identity → Action Outcome) {size : Int} (negative : size < 0)
    (identities : List Identity) (desk : Desk) :
    (workAll work size identities).perform desk = (.error (.batchSize size), desk) := by
  simp only [workAll, negative, if_true]
  rfl

/-- A batch calls its work for every routine and never fails itself, whatever the work comes to,
unless its interval is refused. -/
theorem perform_workAll (work : Identity → Action Outcome) {size : Int} (natural : 0 ≤ size)
    (identities : List Identity) (desk : Desk) :
    ∃ answers after, Calls work desk identities answers after ∧
      (workAll work size identities).perform desk =
        (.ok (.ofCalls size.toNat identities answers), after) := by
  obtain ⟨answers, after, calls, continued⟩ :=
    perform_continueBatch work size.toNat { total := identities.length } identities desk
  obtain ⟨lines, performed⟩ : ∃ lines, (workAll work size identities).perform desk =
      (.ok (.ofCalls size.toNat identities answers), after.logged lines) := by
    rw [workAll, if_neg (Int.not_lt.mpr natural)]
    simp only [Action.perform_bind_ok continued, Action.perform_bind_ok (perform_say _ _ _ _)]
    exact ⟨_, rfl⟩
  exact ⟨answers, _, calls.logged lines, performed⟩

/-! ### Progress -/

namespace Batch

/-- How many routines have been worked on at the time of a report. The first report has the
index zero. -/
def reach (size total index : Nat) : Nat :=
  if size = 0 then total else min ((index + 1) * size) total

/-- The report of an index, in a batch that comes to the given results. -/
def due (size : Nat) (outcomes : List Outcome) (index : Nat) : Milestone :=
  let reached := reach size outcomes.length index
  ⟨index + 1, reached, outcomes.length,
    (outcomes.take reached).countP fun outcome => outcome.fate == .failed⟩

/-- How many reports there are after so many of all routines. -/
def reports (size total processed : Nat) : Nat :=
  processed / size + if processed = total ∧ total % size ≠ 0 then 1 else 0

/-- A batch that comes to the given results, behind the first of them. What it has counted are
those results, and the reports that were due have been made. -/
def upTo (size : Nat) (outcomes : List Outcome) (processed : Nat) : Batch where
  total := outcomes.length
  processed := processed
  changed := (outcomes.take processed).countP fun outcome => outcome.fate.isChange
  failed := (outcomes.take processed).countP fun outcome => outcome.fate == .failed
  outcomes := outcomes.take processed
  nextReport := reports size outcomes.length processed + 1
  milestones := (List.range (reports size outcomes.length processed)).map (due size outcomes)

/-- The batch of all the results. -/
def ofOutcomes (size : Nat) (outcomes : List Outcome) : Batch :=
  upTo size outcomes outcomes.length

/-- Behind all of its results a batch has each counter equal to what it counts. -/
theorem ofOutcomes_eq (size : Nat) (outcomes : List Outcome) : ofOutcomes size outcomes =
    { total := outcomes.length
      processed := outcomes.length
      changed := outcomes.countP fun outcome => outcome.fate.isChange
      failed := outcomes.countP fun outcome => outcome.fate == .failed
      outcomes := outcomes
      nextReport := reports size outcomes.length outcomes.length + 1
      milestones :=
        (List.range (reports size outcomes.length outcomes.length)).map (due size outcomes) } := by
  rw [ofOutcomes, upTo, List.take_length]

/-- The results of such a batch are the given ones, in their order. -/
@[simp] theorem outcomes_ofOutcomes (size : Nat) (outcomes : List Outcome) :
    (ofOutcomes size outcomes).outcomes = outcomes :=
  List.take_length

variable {size : Nat} {outcomes : List Outcome}

/-- Between two boundaries no report is made, unless the batch is at its end: the quotient by the
interval does not change there. -/
theorem reports_succ_of_not_due {total processed : Nat} (inside : processed < total)
    (between : size ≠ 0 → (processed + 1) % size ≠ 0) (early : processed + 1 ≠ total) :
    reports size total (processed + 1) = reports size total processed := by
  have same : (processed + 1) / size = processed / size := by
    rcases Nat.eq_zero_or_pos size with rfl | positive
    · simp
    · exact Nat.succ_div_of_mod_ne_zero (between (Nat.ne_of_gt positive))
  rw [reports, reports, same, if_neg (fun ended => early ended.1),
    if_neg (fun ended => Nat.ne_of_lt inside ended.1)]

/-- At a boundary and at the end there is one report more, on what has been done so far. -/
theorem reports_succ_of_due {total processed : Nat} (inside : processed < total)
    (boundary : size ≠ 0 ∧ (processed + 1) % size = 0 ∨ processed + 1 = total) :
    reports size total (processed + 1) = reports size total processed + 1 ∧
      reach size total (reports size total processed) = processed + 1 := by
  have before : reports size total processed = processed / size := by
    rw [reports, if_neg (fun ended => Nat.ne_of_lt inside ended.1), Nat.add_zero]
  rw [before]
  by_cases atBoundary : size ≠ 0 ∧ (processed + 1) % size = 0
  · obtain ⟨positive, divides⟩ := atBoundary
    have next : (processed + 1) / size = processed / size + 1 := Nat.succ_div_of_mod_eq_zero divides
    constructor
    · rw [reports, next, if_neg]
      rintro ⟨ended, rest⟩
      exact rest (ended ▸ divides)
    · have reached : (processed / size + 1) * size = processed + 1 := by
        rw [← next]
        exact Nat.div_mul_cancel (Nat.dvd_of_mod_eq_zero divides)
      rw [reach, if_neg positive, reached]
      omega
  · have ended : processed + 1 = total := boundary.resolve_left atBoundary
    have same : (processed + 1) / size = processed / size ∧ total % size ≠ 0 := by
      rcases Nat.eq_zero_or_pos size with rfl | positive
      · simp
        omega
      · have rest : (processed + 1) % size ≠ 0 := by
          intro divides
          exact atBoundary ⟨Nat.ne_of_gt positive, divides⟩
        exact ⟨Nat.succ_div_of_mod_ne_zero rest, ended ▸ rest⟩
    constructor
    · rw [reports, same.1, if_pos ⟨ended, same.2⟩]
    · rw [reach]
      split
      · exact ended.symm
      · have beyond := Nat.lt_mul_div_succ processed (Nat.pos_of_ne_zero ‹size ≠ 0›)
        rw [Nat.mul_comm] at beyond
        omega

/-- One more answer takes a batch one result further. If it called its own result a failure,
the failures among the results would be more than the calls that failed. -/
theorem add_upTo {processed : Nat} {identity : Identity} {answer : Except Failure Outcome}
    (next : outcomes[processed]? = some (.ofAnswer identity answer))
    (answers : AnswersFor identity answer) :
    (upTo size outcomes processed).add size (identity, answer) =
      upTo size outcomes (processed + 1) := by
  have inside : processed < outcomes.length := (List.getElem?_eq_some_iff.mp next).1
  have taken : outcomes.take (processed + 1) =
      outcomes.take processed ++ [.ofAnswer identity answer] := by
    rw [List.take_add_one, next]
    rfl
  have entered : (upTo size outcomes processed).enter identity answer =
      { upTo size outcomes (processed + 1) with
        nextReport := reports size outcomes.length processed + 1
        milestones := (List.range (reports size outcomes.length processed)).map (due size outcomes) } := by
    simp only [enter, upTo, taken, List.countP_append, List.countP_singleton, Batch.mk.injEq, true_and]
    refine ⟨?_, ?_, trivial⟩
    · split <;> rfl
    · rw [answers.failed_eq]
      cases answer.isOk <;> rfl
  rw [add, entered]
  by_cases isDue : isDue size (upTo size outcomes (processed + 1)) = true
  · have boundary : size ≠ 0 ∧ (processed + 1) % size = 0 ∨ processed + 1 = outcomes.length := by
      simpa [Batch.isDue, upTo] using isDue
    obtain ⟨more, reached⟩ := reports_succ_of_due inside boundary
    have made : due size outcomes (reports size outcomes.length processed) =
        ⟨reports size outcomes.length processed + 1, processed + 1, outcomes.length,
          (outcomes.take (processed + 1)).countP fun outcome => outcome.fate == .failed⟩ := by
      rw [due, reached]
    refine (if_pos isDue).trans ?_
    simp only [report, milestone, upTo, more, List.range_succ, List.map_append, List.map_singleton, made]
  · have early : (size ≠ 0 → (processed + 1) % size ≠ 0) ∧ processed + 1 ≠ outcomes.length := by
      simpa [Batch.isDue, upTo] using isDue
    refine (if_neg isDue).trans ?_
    simp only [upTo, reports_succ_of_not_due inside early.1 early.2]

/-- Answers take a batch as many results further as there are. The induction is over the answers,
and each of them is one step. -/
theorem foldl_add_upTo {calls : List (Identity × Except Failure Outcome)}
    (answers : ∀ call ∈ calls, AnswersFor call.1 call.2) {processed : Nat}
    (rest : outcomes.drop processed = calls.map fun call => .ofAnswer call.1 call.2) :
    calls.foldl (add size) (upTo size outcomes processed) =
      upTo size outcomes (processed + calls.length) := by
  induction calls generalizing processed with
  | nil => rfl
  | cons call calls inductionHypothesis =>
    rw [List.forall_mem_cons] at answers
    have next : outcomes[processed]? = some (.ofAnswer call.1 call.2) := by
      rw [← List.head?_drop, rest]
      rfl
    have later : outcomes.drop (processed + 1) = calls.map fun call => .ofAnswer call.1 call.2 := by
      rw [← List.drop_drop, rest]
      rfl
    rw [List.foldl_cons, add_upTo next answers.1, inductionHypothesis answers.2 later,
      List.length_cons, Nat.add_assoc, Nat.add_comm 1]

/-- The counts and reports of a batch are those of its results. The loop begins with nothing done,
and the run goes through all of them. -/
theorem ofCalls_eq {identities : List Identity} {answers : List (Except Failure Outcome)}
    (length : answers.length = identities.length)
    (each : ∀ call ∈ identities.zip answers, AnswersFor call.1 call.2) :
    ofCalls size identities answers =
      ofOutcomes size (List.zipWith Outcome.ofAnswer identities answers) := by
  have all : (List.zipWith Outcome.ofAnswer identities answers).length = identities.length := by
    rw [List.length_zipWith, length, Nat.min_self]
  have start : ({ total := identities.length } : Batch) =
      upTo size (List.zipWith Outcome.ofAnswer identities answers) 0 := by
    have none : reports size identities.length 0 = 0 := by
      rw [reports, Nat.zero_div, if_neg]
      rintro ⟨empty, rest⟩
      simp [← empty] at rest
    simp [upTo, all, none]
  have walked : (identities.zip answers).foldl (add size)
      (upTo size (List.zipWith Outcome.ofAnswer identities answers) 0) =
      upTo size (List.zipWith Outcome.ofAnswer identities answers)
        (0 + (identities.zip answers).length) := by
    apply foldl_add_upTo each
    rw [List.drop_zero, List.map_zip_eq_zipWith]
    rfl
  rw [ofCalls, start, walked, List.length_zip, length, Nat.min_self, Nat.zero_add, ← all]
  rfl

end Batch

end SqlRenewal
