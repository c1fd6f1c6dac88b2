import Mathlib
import SqlRenewal.Renewal.Report
import SqlRenewal.Proofs.Renewal.Pass
import SqlRenewal.Proofs.Throw.LiteralReading

/-!
# Where a replaced statement comes from

Every replacement in a report is traced back to its statement in the text before
the renewal. Its position counts in the text that the pass wrote, so it is off by
what the edits before it added or took away.

For a statement with an argument list this answers whether string literals misled
the reading. A list that raises no flag was read as a reader that knows literals
reads it exactly if its apostrophes pair up. With one left over, the list ends
inside a literal that goes on behind it, where nobody looks for delimiters.
-/
namespace SqlRenewal

/-- The number of characters that an edit adds to the text. -/
def Edit.growth : Edit → Int
  | .replaced replacement => replacement.after.length - replacement.before.length
  | .skipped _ => 0

/-- The number of characters that edits add to the text. -/
def growthOf (edits : List Edit) : Int :=
  edits.foldr (fun edit growth => edit.growth + growth) 0

/-- Without edits nothing grows. -/
@[simp] theorem growthOf_nil : growthOf [] = 0 := rfl

/-- The growth of the edits adds up. -/
@[simp] theorem growthOf_cons (edit : Edit) (edits : List Edit) :
    growthOf (edit :: edits) = edit.growth + growthOf edits := rfl

/-- The replacement is the record of a statement in front of `rest`. -/
structure Replacement.Records (replacement : Replacement) (span : Span) (reading : Reading)
    (rest : Text) : Prop where
  stated : Statement span.layout span.arguments replacement.before reading
  form : replacement.form = span.layout.form
  after : replacement.after = reading.render
  flags : replacement.flags = readingFlags span reading rest
  code : replacement.code = reading.code

/-- A replacement records a statement of the text that the pass went over: its offsets are those
of the old text, since what has been gone over is counted there. -/
theorem reviseFrom_records {before : Option Char} {position : Nat} {text : Text}
    {earlier later : List Edit} {replacement : Replacement}
    (edits : (reviseFrom before position text).edits = earlier ++ .replaced replacement :: later) :
    ∃ front span reading rest, text = front ++ replacement.before ++ rest ∧
      replacement.Records span reading rest ∧
      (replacement.position : Int) = position + front.length + growthOf earlier := by
  -- The induction follows the pass; what it has gone over is the front of the text.
  induction size : text.length using Nat.strongRecOn generalizing before position text earlier with
  | ind n inductionHypothesis =>
    rcases settle_cases before text with lacking | ⟨kept, rest, rfl, leaves⟩ |
      ⟨span, reading, front, statement, rest, decided, rfl, replaces⟩
    · rw [reviseFrom_done lacking] at edits
      simp at edits
    · obtain ⟨skip, same⟩ := reviseFrom_left leaves position
      simp only [same, Revision.precede] at edits
      have shorter : rest.length < n := by
        have := List.length_pos_iff.mpr leaves.ne_nil
        simp only [List.length_append] at size
        omega
      cases earlier with
      | nil => simp at edits
      | cons edit earlier =>
        rw [List.cons_append] at edits
        obtain ⟨rfl, remaining⟩ := List.cons.inj edits
        obtain ⟨front, span, reading, behind, split, records, placed⟩ :=
          inductionHypothesis _ shorter remaining rfl
        refine ⟨kept ++ front, span, reading, behind, by simp [split], records, ?_⟩
        simp only [growthOf_cons, Edit.growth, List.length_append]
        omega
    · simp only [reviseFrom_replaced decided replaces, Revision.precede] at edits
      have shorter : rest.length < n := by
        have := List.length_pos_iff.mpr replaces.stated.ne_nil
        simp only [List.length_append] at size
        omega
      cases earlier with
      | nil =>
        obtain ⟨same, _⟩ := List.cons.inj edits
        cases same
        exact ⟨front, span, reading, rest, rfl, ⟨replaces.stated, rfl, rfl, rfl, rfl⟩, by simp⟩
      | cons edit earlier =>
        rw [List.cons_append] at edits
        obtain ⟨rfl, remaining⟩ := List.cons.inj edits
        obtain ⟨behind, other, later, tail, split, records, placed⟩ :=
          inductionHypothesis _ shorter remaining rfl
        refine ⟨front ++ statement ++ behind, other, later, tail, by simp [split], records, ?_⟩
        simp only [growthOf_cons, Edit.growth, List.length_append]
        omega

/-- The flag of a literal with delimiters is set for parenthesized statements with such a literal,
and for no others: what comes behind it in the list are other flags. -/
theorem delimitedLiteral_mem_readingFlags {span : Span} {reading : Reading} {tail : Text} :
    Flag.delimitedLiteral ∈ readingFlags span reading tail ↔
      span.layout = .parenthesized ∧ hasDelimitedLiteral span.arguments = true := by
  simp only [readingFlags, List.mem_append]
  constructor
  · rintro ((member | member) | member)
    · split at member
      · assumption
      · simp at member
    · split at member <;> simp at member
    · split at member <;> simp at member
  · intro delimited
    simp [delimited]

/-- Nothing in front of an argument list is a parenthesis: the letters of the keyword and blanks
have no weight. -/
theorem Spells.no_parenthesis {word blanks : Text} (spelled : Spells raiseWord word)
    (blank : ∀ c ∈ blanks, isBlank c = true) : '(' ∉ word ++ blanks := by
  intro member
  have weightless : weight '(' = 0 := by
    rcases List.mem_append.mp member with inWord | inBlanks
    · exact spelled.weightless _ inWord
    · exact weight_of_isBlank (blank _ inBlanks)
  exact absurd weightless (by decide)

/-- A replaced argument list without a flag about its literals: the parenthesis that
closes it and its arguments are those that a reader finds who knows literals,
exactly if the list holds an even number of apostrophes. -/
theorem renew_reads_literals {rules : List Rule} {text : Text} {earlier later : List Edit}
    {statement : Replacement}
    (edits : (renew rules text).edits = earlier ++ .replaced statement :: later)
    (form : statement.form = .parenthesized) (unflagged : .delimitedLiteral ∉ statement.flags) :
    ∃ front opening arguments rest reading,
      text = front ++ opening ++ '(' :: (arguments ++ ')' :: rest) ∧ '(' ∉ opening ∧
      statement.before = opening ++ '(' :: arguments ++ [')'] ∧
      (statement.position : Int) = front.length + growthOf earlier ∧
      readArguments arguments = .ok reading ∧ statement.after = reading.render ∧
      (literalReading? (arguments ++ ')' :: rest) =
          some (arguments.length, splitArguments arguments) ↔
        arguments.count '\'' % 2 = 0) := by
  obtain ⟨front, span, reading, rest, split, records, placed⟩ := reviseFrom_records edits
  obtain ⟨stated, sameForm, after, flags⟩ := records
  obtain ⟨start, stop, arguments, layout, _⟩ := span
  cases layout with
  | bare code message =>
    rw [sameForm] at form
    cases form
  | parenthesized =>
    rw [flags, delimitedLiteral_mem_readingFlags] at unflagged
    have plain : hasDelimitedLiteral arguments = false := by simpa using unflagged
    generalize written : statement.before = before at stated split
    cases stated with
    | @parenthesized word blanks _ _ spelled blank balanced read =>
      have closes : closeAt? 1 (arguments ++ ')' :: rest) = some arguments.length :=
        closeAt?_one_eq_some_iff.mpr ⟨arguments, rest, rfl, rfl, balanced⟩
      refine ⟨front, word ++ blanks, arguments, rest, reading, by simp [split],
        spelled.no_parenthesis blank, by simp, ?_, read.2, after, literalReading?_eq_iff closes plain⟩
      simpa using placed

/-- A doubled apostrophe stays inside its literal. -/
theorem renew_reads_doubled_apostrophe :
    let statement : Replacement := ⟨1, .parenthesized, "RAISERROR('it''s',1)".toList,
      ";THROW 50000, 'it''s', 1".toList, 50000, some ['1'], []⟩
    (renew [] " RAISERROR('it''s',1)".toList).edits = [.replaced statement] ∧
      ∃ front opening arguments rest reading,
        " RAISERROR('it''s',1)".toList = front ++ opening ++ '(' :: (arguments ++ ')' :: rest) ∧
        '(' ∉ opening ∧ statement.before = opening ++ '(' :: arguments ++ [')'] ∧
        (statement.position : Int) = front.length + growthOf [] ∧
        readArguments arguments = .ok reading ∧ statement.after = reading.render ∧
        (literalReading? (arguments ++ ')' :: rest) =
            some (arguments.length, splitArguments arguments) ↔
          arguments.count '\'' % 2 = 0) := by
  intro statement
  have edits : (renew [] " RAISERROR('it''s',1)".toList).edits = [.replaced statement] := by cbv
  exact ⟨edits, renew_reads_literals edits rfl (by simp [statement])⟩

/-- The list is closed inside a literal, which is cut in two; the half that is
searched for delimiters is no literal, so no flag is raised. -/
theorem renew_misreads_open_literal :
    (renew builtinRules "RAISERROR ('a)', 16, 1)".toList).edits =
        [.replaced ⟨0, .parenthesized, "RAISERROR ('a)".toList, ";THROW 50000, 'a, 1".toList, 50000,
          none, []⟩] ∧
      literalReading? "'a)', 16, 1)".toList =
        some (11, ["'a)'".toList, "16".toList, "1".toList]) := by
  have pass : (revise "RAISERROR ('a)', 16, 1)".toList).edits =
      [.replaced ⟨0, .parenthesized, "RAISERROR ('a)".toList, ";THROW 50000, 'a, 1".toList, 50000,
        none, []⟩] := by cbv
  exact ⟨pass, by cbv⟩

end SqlRenewal
