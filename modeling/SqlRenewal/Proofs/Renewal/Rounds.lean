import Mathlib
import SqlRenewal.Renewal.Report
import SqlRenewal.Proofs.Raise.Offsets
import SqlRenewal.Proofs.Throw.ListReading

/-!
# The statement pass in rounds

The pass as a loop that has no end of its own. Every round searches the text from an
offset on, reads the arguments of the statement that it finds, writes the modern one in its
place and goes on behind it. The text grows and shrinks on the way, and everything that can
be refused is refused here: bounds that fail their checks, a number with more digits than
are written, a rule whose allowance fits into no word. Only where arguments have no reading
is the refusal a skip.

What becomes smaller is the part of the text behind the offset. So the loop comes to an
end, and it comes there with the revision of `revise`: no round is ever refused.
-/
namespace SqlRenewal

/-! ### The loop -/

/-- Why a renewal in rounds stops halfway. -/
inductive Fault where
  | bounds (fault : BoundsFault)
  | digits (overflow : DigitOverflow)
  | word (overflow : WordOverflow)
deriving DecidableEq, Repr

/-- Writes an integer, unless it has too many digits. -/
def writeChecked (value : Int) : Except DigitOverflow Text :=
  if digitLimit < digitCount value then .error ⟨digitCount value⟩ else .ok (intText value)

/-- The modern statement, unless one of its numbers has too many digits. -/
def Reading.renderChecked (reading : Reading) : Except DigitOverflow Text := do
  let code ← writeChecked reading.code
  let state ← writeChecked reading.state
  return [';', 'T', 'H', 'R', 'O', 'W', ' '] ++
    (code ++ [',', ' '] ++ reading.message ++ [',', ' '] ++ state)

/-- The text so far, the offset where the next round begins, and the edits so far. -/
structure Round where
  text : Text
  offset : Nat
  edits : List Edit
deriving DecidableEq, Repr

/-- The round behind an occurrence that stays. -/
def Round.skip (round : Round) (skip : Skip) : Round :=
  { round with
    offset := skip.resume
    edits := round.edits ++ [.skipped skip] }

/-- The round behind a statement that was replaced. -/
def Round.replace (round : Round) (span : Span) (reading : Reading) (written : Text) : Round :=
  let tail := round.text.drop span.stop
  { text := round.text.take span.start ++ written ++ tail
    offset := span.start + written.length
    edits := round.edits ++
      [.replaced
        { position := span.start
          form := span.layout.form
          before := slice round.text span.start span.stop
          after := written
          code := reading.code
          severity := reading.severity
          flags := readingFlags span reading tail }] }

/-- One round; there is none after it if no keyword is left. -/
def Round.next (round : Round) : Except Fault (Option Round) := do
  match ← (scan round.text round.offset).accept.mapError .bounds with
  | .absent => return none
  | .skipped skip => return some (round.skip skip)
  | .found span =>
    match readSpan span with
    | .error reason =>
      let skip ← (acceptSkip span.start span.stop reason).mapError .bounds
      return some (round.skip skip)
    | .ok reading =>
      let written ← reading.renderChecked.mapError .digits
      return some (round.replace span reading written)

/-- Round after round, until one stops: the loop from a round on ends with the outcome. A
loop that goes on for ever has none. -/
inductive Round.Ends : Round → Except Fault Revision → Prop where
  | refused {round : Round} {fault : Fault} (next : round.next = .error fault) :
      Round.Ends round (.error fault)
  | finished {round : Round} (next : round.next = .ok none) :
      Round.Ends round (.ok ⟨round.text, round.edits⟩)
  | onward {round later : Round} {outcome : Except Fault Revision}
      (next : round.next = .ok (some later)) (ends : later.Ends outcome) : Round.Ends round outcome

/-- The rules, behind a loop over the text that has ended. -/
def finishRounds (rules : List Rule) (text : Text) (revised : Except Fault Revision) :
    Except Fault Report := do
  let revision ← revised
  let progress ← (applyRulesChecked rules (revision.text ≠ text) revision.text).mapError .word
  return ⟨text, progress.text, revision.edits, progress.tally⟩

/-- A renewal in rounds ends with the outcome: the loop over the whole text ends, and the
rules follow. -/
def RenewalEnds (rules : List Rule) (text : Text) (outcome : Except Fault Report) : Prop :=
  ∃ revised, Round.Ends ⟨text, 0, []⟩ revised ∧ outcome = finishRounds rules text revised

/-! ### One round -/

/-- The round behind a decision. -/
def Round.after (round : Round) : Decision → Option Round
  | .done => none
  | .leave skip => some (round.skip skip)
  | .replace span reading => some (round.replace span reading reading.render)

/-- A number that is short enough is written as its numeral. -/
theorem writeChecked_eq {value : Int} (short : digitCount value ≤ digitLimit) :
    writeChecked value = .ok (intText value) := by
  rw [writeChecked, if_neg (Nat.not_lt_of_le short)]

/-- What was read can be written. -/
theorem renderChecked_eq {span : Span} {reading : Reading} (read : readSpan span = .ok reading) :
    reading.renderChecked = .ok reading.render := by
  obtain ⟨code, state⟩ := readSpan_digitCount read
  rw [Reading.renderChecked, writeChecked_eq code, writeChecked_eq state]
  rfl

/-- A round inside its text is not refused: it does what the search and the reading
decide. -/
theorem Round.next_eq {round : Round} (inside : round.offset ≤ round.text.length) :
    round.next = .ok (round.after (settle (locate round.text round.offset))) := by
  rw [Round.next, (scan_accept inside).1]
  cases locate round.text round.offset with
  | absent => rfl
  | skipped skip => rfl
  | found span =>
    cases read : readSpan span with
    | error reason =>
      have accepted : acceptSkip span.start span.stop reason =
          .ok ⟨span.start, span.stop, reason, span.start_lt_stop⟩ := acceptSkip_eq ⟨_, _, _, _⟩
      simp only [settle, read, Except.mapError, bind, Except.bind, accepted]
      rfl
    | ok reading =>
      simp only [settle, read, Except.mapError, bind, Except.bind, renderChecked_eq read]
      rfl

/-- What is decided about an occurrence is about a part of the text behind the offset: the search
begins there, and what it finds ends where the text does at the latest. -/
theorem settle_locate_within {text : Text} {offset : Nat} (inside : offset ≤ text.length) :
    (∀ skip, settle (locate text offset) = .leave skip →
      offset ≤ skip.position ∧ skip.resume ≤ text.length) ∧
    ∀ span reading, settle (locate text offset) = .replace span reading →
      offset ≤ span.start ∧ span.stop ≤ text.length := by
  have within := locate_within inside
  cases seen : locate text offset with
  | absent => simp [settle]
  | skipped skip =>
    rw [seen] at within
    simp only [Sighting.raw, RawSighting.Within, Int.ofNat_le] at within
    simp only [settle, Decision.leave.injEq, reduceCtorEq, false_implies, implies_true, and_true]
    rintro _ rfl
    exact ⟨within.1, within.2.2⟩
  | found span =>
    rw [seen] at within
    simp only [Sighting.raw, RawSighting.Within, Int.ofNat_le] at within
    simp only [settle]
    cases readSpan span with
    | error reason =>
      simp only [Decision.leave.injEq, reduceCtorEq, false_implies, implies_true, and_true]
      rintro _ rfl
      exact ⟨within.1, within.2.2.1⟩
    | ok reading =>
      simp only [Decision.replace.injEq, reduceCtorEq, false_implies, implies_true, true_and]
      rintro _ _ ⟨rfl, _⟩
      exact ⟨within.1, within.2.2.1⟩

/-- A round leaves less of the text behind the offset than there was. It goes on behind the
keyword that it has dealt with, which is not empty. -/
theorem Round.after_shorter {round later : Round} (inside : round.offset ≤ round.text.length)
    (next : round.after (settle (locate round.text round.offset)) = some later) :
    later.offset ≤ later.text.length ∧
      later.text.length - later.offset < round.text.length - round.offset := by
  obtain ⟨leaves, replaces⟩ := settle_locate_within inside
  cases decided : settle (locate round.text round.offset) with
  | done =>
    rw [decided] at next
    cases next
  | leave skip =>
    rw [decided] at next
    cases next
    have bounds := leaves skip decided
    have forward := skip.position_lt_resume
    simp only [Round.skip]
    omega
  | replace span reading =>
    rw [decided] at next
    cases next
    have bounds := replaces span reading decided
    have forward := span.start_lt_stop
    simp only [Round.replace, List.length_append, List.length_take, List.length_drop]
    omega

/-! ### All rounds -/

/-- No occurrence is left, and the pass is over. -/
theorem reviseFrom_of_done {before : Option Char} {text : Text}
    (decided : settle (sight before text) = .done) (position : Nat) :
    reviseFrom before position text = ⟨text, []⟩ := by
  rw [reviseFrom]
  split <;> simp_all

/-- A loop has one outcome at most, because each of its rounds has one. The induction is on the
rounds of one of two runs. -/
theorem Round.Ends.unique {round : Round} {first second : Except Fault Revision}
    (ends : round.Ends first) (other : round.Ends second) : first = second := by
  induction ends generalizing second with
  | refused next =>
    cases other with
    | refused also => rw [next] at also; cases also; rfl
    | finished also => rw [next] at also; cases also
    | onward also => rw [next] at also; cases also
  | finished next =>
    cases other with
    | refused also => rw [next] at also; cases also
    | finished also => rfl
    | onward also => rw [next] at also; cases also
  | onward next ends inductionHypothesis =>
    cases other with
    | refused also => rw [next] at also; cases also
    | finished also => rw [next] at also; cases also
    | onward also further =>
      rw [next] at also
      cases also
      exact inductionHypothesis further

/-- The length of a text in which a part was replaced, from the lengths of its parts. -/
theorem passed_length {front tail : Text} {count : Nat} (bound : count ≤ tail.length)
    (written : Text) :
    (front ++ tail.take count ++ written).length = front.length + count + written.length := by
  simp [Nat.min_eq_left bound, Nat.add_assoc]

section Parts

variable {front tail : Text} {edits : List Edit}

/-- Between two parts of a text, a round decides as the pass does about the second one. -/
theorem Round.next_append :
    Round.next ⟨front ++ tail, front.length, edits⟩ =
      .ok (Round.after ⟨front ++ tail, front.length, edits⟩
        ((settle (sight front.getLast? tail)).shift front.length)) := by
  have inside : front.length ≤ (front ++ tail).length := by simp
  have decision : settle (locate (front ++ tail) front.length) =
      (settle (sight front.getLast? tail)).shift front.length := by
    rw [locate_eq inside, List.take_left, List.drop_left, settle_shift]
  rw [Round.next_eq inside, decision]

/-- A skipped part of the text goes over to the first part. -/
theorem Round.skip_append {skip : Skip} (bound : skip.resume ≤ tail.length) :
    let passed := front ++ tail.take skip.resume
    Round.skip ⟨front ++ tail, front.length, edits⟩ (skip.shift front.length) =
      ⟨passed ++ tail.drop skip.resume, passed.length,
        edits ++ [.skipped (skip.shift front.length)]⟩ := by
  simp [Round.skip, Skip.shift, Nat.min_eq_left bound]

/-- A replaced statement goes over to the first part, with what stands before it. The first part
is as long as the offset at which the next round begins. -/
theorem Round.replace_append {span : Span} (bound : span.stop ≤ tail.length) (reading : Reading) :
    let passed := front ++ tail.take span.start ++ reading.render
    Round.replace ⟨front ++ tail, front.length, edits⟩ (span.shift front.length) reading
        reading.render =
      ⟨passed ++ tail.drop span.stop, passed.length, edits ++ [.replaced
        { position := front.length + span.start
          form := span.layout.form
          before := (tail.take span.stop).drop span.start
          after := reading.render
          code := reading.code
          severity := reading.severity
          flags := readingFlags span reading (tail.drop span.stop) }]⟩ := by
  have started : span.start ≤ tail.length := Nat.le_trans (Nat.le_of_lt span.start_lt_stop) bound
  have flags : readingFlags (span.shift front.length) reading (tail.drop span.stop) =
      readingFlags span reading (tail.drop span.stop) := rfl
  simp only [Round.replace, passed_length started, ← flags]
  simp [Span.shift, slice, List.take_length_add_append, List.drop_length_add_append]

end Parts

/-- From a round on, the loop does what is left of the pass: it ends, without being
refused, with the revision of the text behind the offset. -/
theorem Round.ends_reviseFrom (front tail : Text) (edits : List Edit) :
    Round.Ends ⟨front ++ tail, front.length, edits⟩
      (.ok ⟨front ++ (reviseFrom front.getLast? front.length tail).text,
        edits ++ (reviseFrom front.getLast? front.length tail).edits⟩) := by
  -- Strong induction on the text behind the offset, of which every round leaves less.
  induction size : tail.length using Nat.strongRecOn generalizing front tail edits with
  | ind n inductionHypothesis =>
    have next := @Round.next_append front tail edits
    cases decided : settle (sight front.getLast? tail) with
    | done =>
      rw [decided] at next
      rw [reviseFrom_of_done decided, List.append_nil]
      exact .finished next
    | leave skip =>
      have bound := settle_leave_le decided
      have forward := skip.position_lt_resume
      have shorter : (tail.drop skip.resume).length < n := by
        rw [List.length_drop]
        omega
      have length : (front ++ tail.take skip.resume).length = front.length + skip.resume := by
        simp [Nat.min_eq_left bound]
      have further := inductionHypothesis _ shorter (front ++ tail.take skip.resume) _
        (edits ++ [.skipped (skip.shift front.length)]) rfl
      rw [decided, Decision.shift, Round.after, Round.skip_append bound] at next
      rw [length, ← lastOf_getLast?] at further
      rw [length] at next
      rw [reviseFrom_leave decided]
      refine .onward next ?_
      simpa [Revision.precede] using further
    | replace span reading =>
      have bound := settle_replace_le decided
      have forward := span.start_lt_stop
      have shorter : (tail.drop span.stop).length < n := by
        rw [List.length_drop]
        omega
      have length := @passed_length front tail span.start (by omega) reading.render
      have last : (front ++ tail.take span.start ++ reading.render).getLast? =
          lastOf front.getLast? reading.render := by
        rw [← lastOf_getLast?]
        exact lastOf_of_ne_nil (by simp [Reading.render]) _ _
      have further := fun more => inductionHypothesis _ shorter
        (front ++ tail.take span.start ++ reading.render) _ (edits ++ [more]) rfl
      simp only [length, last] at further
      rw [decided, Decision.shift, Round.after, Round.replace_append bound, length] at next
      rw [reviseFrom_replace decided]
      refine .onward next ?_
      simpa [Revision.precede] using further _

/-- The loop over a whole text ends with its revision. -/
theorem Round.ends_revise (text : Text) : Round.Ends ⟨text, 0, []⟩ (.ok (revise text)) :=
  Round.ends_reviseFrom [] text []

/-- Rules that can all be applied are never refused, since no rule is left of those that could
overflow. -/
theorem meetsOverflow_eq_false {rules : List Rule} (applicable : rules.all Rule.isApplicable = true)
    (changed : Bool) (text : Text) : meetsOverflow rules changed text = false := by
  have none : rules.filter (!·.isApplicable) = [] := by
    rw [List.filter_eq_nil_iff]
    intro rule member
    simp [List.all_eq_true.mp applicable rule member]
  simp [meetsOverflow, none]

/-- A renewal overflows where the rules meet an overflow in the revised text. -/
theorem renewalOverflows_eq (rules : List Rule) (text : Text) :
    renewalOverflows rules text =
      meetsOverflow rules ((revise text).text ≠ text) (revise text).text := by
  unfold renewalOverflows
  cases applicable : rules.all Rule.isApplicable with
  | false => rfl
  | true => rw [meetsOverflow_eq_false applicable]; rfl

/-- A renewal in rounds ends, for every text and all rules, with what the checked renewal
gives and with nothing else: only the rules are ever refused. -/
theorem renewalEnds_iff {rules : List Rule} {text : Text} {outcome : Except Fault Report} :
    RenewalEnds rules text outcome ↔ outcome = (renewChecked rules text).mapError .word := by
  have finish : finishRounds rules text (.ok (revise text)) =
      (renewChecked rules text).mapError .word := by
    rw [renewChecked, renewalOverflows_eq]
    simp only [finishRounds, applyRulesChecked, bind, Except.bind]
    cases meetsOverflow rules ((revise text).text ≠ text) (revise text).text <;> rfl
  constructor
  · rintro ⟨revised, ends, rfl⟩
    rw [ends.unique (Round.ends_revise text), finish]
  · rintro rfl
    exact ⟨_, Round.ends_revise text, finish.symm⟩

/-- With rules that can be applied, a renewal ends in its report and in nothing else: the only
other end is a rule that cannot be applied. -/
theorem renewalEnds_applicable_iff {rules : List Rule}
    (applicable : ∀ rule ∈ rules, rule.isApplicable = true) {text : Text}
    {outcome : Except Fault Report} :
    RenewalEnds rules text outcome ↔ outcome = .ok (renew rules text) := by
  have fits := renewalOverflows_eq_false text (List.all_eq_true.mpr applicable)
  rw [renewalEnds_iff, renewChecked, fits]
  rfl

/-- A renewal ends with its report, for every text and all rules that can be applied. Every
round leaves less of the text behind the offset, and is not refused; a search from any
offset inside a text gives bounds that pass their checks; and arguments that are refused,
whatever the reason, are skipped. -/
theorem renewal_finishes (rules : List Rule) (text : Text) :
    (∀ outcome, RenewalEnds rules text outcome ↔
        outcome = (renewChecked rules text).mapError .word) ∧
      ((∀ rule ∈ rules, rule.isApplicable = true) →
        ∀ outcome, RenewalEnds rules text outcome ↔ outcome = .ok (renew rules text)) ∧
      (∀ round : Round, round.offset ≤ round.text.length →
        ∃ outcome, round.next = .ok outcome ∧ ∀ later, outcome = some later →
          later.offset ≤ later.text.length ∧
          later.text.length - later.offset < round.text.length - round.offset) ∧
      (∀ (any : Text) (offset : Nat), offset ≤ any.length →
        (scan any offset).accept = .ok (locate any offset) ∧ (scan any offset).Within any offset) ∧
      ∀ (round : Round) (span : Span) (reason : Reason), round.offset ≤ round.text.length →
        locate round.text round.offset = .found span →
        (readSpan span = .error reason ↔ Refusal span reason) ∧ (Refusal span reason →
          round.next = .ok (some (round.skip ⟨span.start, span.stop, reason, span.start_lt_stop⟩))) := by
  refine ⟨fun _ => renewalEnds_iff, fun applicable _ => renewalEnds_applicable_iff applicable, ?_,
    fun _ _ inside => scan_accept inside, ?_⟩
  · intro round inside
    exact ⟨_, round.next_eq inside, fun later next => round.after_shorter inside next⟩
  · intro round span reason inside found
    refine ⟨readSpan_eq_error_iff, fun refusal => ?_⟩
    have read := readSpan_eq_error_iff.mpr refusal
    rw [round.next_eq inside, found]
    simp only [settle, read, Round.after]

/-- The first argument is missing, so the statement is skipped. -/
theorem renewal_finishes_empty_argument :
    let text : Text := "RAISERROR(,1)".toList
    let round : Round := ⟨text, 0, []⟩
    RenewalEnds builtinRules text (.ok (renew builtinRules text)) ∧
      (scan text 0).accept = .ok (locate text 0) ∧
      round.next = .ok (some (round.skip ⟨0, 13, .emptyArgument, by decide⟩)) := by
  intro text round
  let span : Span := ⟨0, 13, ",1".toList, .parenthesized, by decide⟩
  have found : locate text 0 = .found span := by decide
  have refusal : Refusal span .emptyArgument := .emptyArgument rfl (by decide)
  obtain ⟨_, finishes, _, accepts, skips⟩ := renewal_finishes builtinRules text
  exact ⟨(finishes (by decide) _).mpr rfl, (accepts text 0 (Nat.zero_le _)).1,
    (skips round span .emptyArgument (Nat.zero_le _) found).2 refusal⟩

/-- A rule whose allowance fits into no word stops the renewal, and there is no report. -/
theorem oversized_allowance_stops_renewal :
    let rule : Rule :=
      { name := ['r'], pattern := .literal ['a'] ['b'], allowance := some 9223372036854775808 }
    RenewalEnds [rule] ['a'] (.error (.word ⟨⟩)) ∧ ∀ report, ¬ RenewalEnds [rule] ['a'] (.ok report) := by
  intro rule
  have overflows : renewalOverflows [rule] ['a'] = true := by
    simp [renewalOverflows, meetsOverflow, rule, Rule.isApplicable, fitsWord]
  have outcome : (renewChecked [rule] ['a']).mapError Fault.word = .error (.word ⟨⟩) := by
    rw [renewChecked, if_pos overflows]
    rfl
  refine ⟨renewalEnds_iff.mpr outcome.symm, fun report ends => ?_⟩
  have same := renewalEnds_iff.mp ends
  rw [outcome] at same
  cases same

end SqlRenewal
