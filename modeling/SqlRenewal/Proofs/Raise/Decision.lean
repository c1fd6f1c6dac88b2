import SqlRenewal.Proofs.Raise.Occurrence

/-!
# The decision about an occurrence

Reading and deciding, put together. An occurrence described by `Leaves` is left
alone, and `settle_cases` says that every text either lacks the keyword, or has a
next occurrence that is left alone, or has one that is replaced.
-/
namespace SqlRenewal

/-- An argument list is replaced if it can be read, and left alone otherwise. It is closed behind
a balanced text, which the search for the parenthesis finds as a whole. -/
theorem settle_parenthesized {position opened : Nat} (after : position < opened) {arguments : Text}
    (balanced : Balanced arguments) (rest : Text) :
    (∃ reading, ArgumentsRead arguments reading ∧
        settle (sightParenthesized position opened after (arguments ++ ')' :: rest)) =
          .replace ⟨position, opened + arguments.length + 1, arguments, .parenthesized, by omega⟩
            reading) ∨
      ((∀ reading, ¬ArgumentsRead arguments reading) ∧
        ∃ reason, settle (sightParenthesized position opened after (arguments ++ ')' :: rest)) =
          .leave ⟨position, opened + arguments.length + 1, reason, by omega⟩) := by
  have closes : closeAt? 1 (arguments ++ ')' :: rest) = some arguments.length :=
    closeAt?_one_eq_some_iff.mpr ⟨arguments, rest, rfl, rfl, balanced⟩
  simp only [sightParenthesized, closes, List.take_left]
  by_cases nested : hasRaise arguments = true
  · refine .inr ⟨?_, .nested, by simp [nested, settle]⟩
    rintro reading ⟨lacking, _⟩
    rw [nested] at lacking
    cases lacking
  · rw [if_neg nested]
    cases read : readArguments arguments with
    | ok reading =>
      exact .inl ⟨reading, ⟨by simpa using nested, read⟩, by simp [settle, readSpan, read]⟩
    | error reason =>
      refine .inr ⟨?_, reason, by simp [settle, readSpan, read]⟩
      rintro reading ⟨_, other⟩
      rw [read] at other
      cases other

/-- A statement whose parenthesis is not closed is left as it is, with that reason. -/
theorem settle_unclosed {position opened : Nat} (after : position < opened) {inside : Text}
    (closes : closeAt? 1 inside = none) :
    settle (sightParenthesized position opened after inside) =
      .leave ⟨position, opened, .unclosed, after⟩ := by
  simp only [sightParenthesized, closes, settle]

/-- A line is replaced up to its trailer if it can be read, and left alone otherwise. Its parts
are those that the reader of lines finds, and the order of the tests is the one of the scan. -/
theorem settle_bare {position start : Nat} (after : position < start) {line : Text}
    (unbroken : ∀ c ∈ line, isLineBreak c = false) :
    (∃ reading code gap message trailer, LineReads line reading ∧
        line = code ++ gap ++ message ++ trailer ∧ (∀ c ∈ gap, isBlank c = true) ∧
        (∀ c ∈ trailer, isTrailer c = true) ∧
        hasRaise message = false ∧ readBare code message = .ok reading ∧
        settle (sightBare position start after (.ofText line)) =
          .replace ⟨position, start + code.length + gap.length + message.length,
            code ++ gap ++ message, .bare code message, by omega⟩ reading) ∨
      ((∀ reading, ¬LineReads line reading) ∧
        ∃ kept trailer reason, line = kept ++ trailer ∧ (∀ c ∈ trailer, isTrailer c = true) ∧
          settle (sightBare position start after (.ofText line)) =
            .leave ⟨position, start + kept.length, reason, by omega⟩) := by
  obtain ⟨trailer, parts, trailing⟩ := BareLine.parts_append unbroken
  have whole : (BareLine.ofText line).line = line := takeWhile_unbroken unbroken
  simp only [sightBare, whole]
  by_cases noGap : (BareLine.ofText line).gap = []
  · refine .inr ⟨?_, line, [], .noGap, by simp, by simp, by simp [noGap, settle]⟩
    rintro reading ⟨gap, _⟩
    exact gap noGap
  · rw [if_neg noGap]
    by_cases noMessage : (BareLine.ofText line).message = []
    · refine .inr ⟨?_, line, [], .noMessage, by simp, by simp, by simp [noMessage, settle]⟩
      rintro reading ⟨_, message, _⟩
      exact message noMessage
    · rw [if_neg noMessage]
      have stop : start + (BareLine.ofText line).code.length + (BareLine.ofText line).gap.length +
          (BareLine.ofText line).message.length = start + ((BareLine.ofText line).code ++
            (BareLine.ofText line).gap ++ (BareLine.ofText line).message).length := by
        simp only [List.length_append]
        omega
      by_cases nested : hasRaise (BareLine.ofText line).message = true
      · refine .inr ⟨?_, _, trailer, .nested, parts, trailing, ?_⟩
        · rintro reading ⟨_, _, lacking, _⟩
          rw [nested] at lacking
          cases lacking
        · simp only [if_pos nested, settle, stop]
      · rw [if_neg nested]
        cases read : readBare (BareLine.ofText line).code (BareLine.ofText line).message with
        | ok reading =>
          have lacking : hasRaise (BareLine.ofText line).message = false := by simpa using nested
          refine .inl ⟨reading, _, _, _, trailer, ⟨noGap, noMessage, lacking, read⟩, parts,
            List.all_eq_true.mp List.all_takeWhile, trailing, lacking, read, ?_⟩
          simp [settle, readSpan, read]
        | error reason =>
          refine .inr ⟨?_, _, trailer, reason, parts, trailing, ?_⟩
          · rintro reading ⟨_, _, _, other⟩
            rw [read] at other
            cases other
          · simp only [settle, readSpan, read, stop]

/-- What follows a line that was read does not join it. -/
theorem endsWord_head_of_trailer {trailer rest : Text} (trailing : ∀ c ∈ trailer, isTrailer c = true)
    (closed : AtLineEnd rest) : endsWord (trailer ++ rest).head? = true := by
  cases trailer with
  | nil => exact closed.endsWord_head
  | cons c trailer => exact (trailer_outside_words (trailing c (by simp))).1

/-! ### The decision -/

/-- An occurrence that stays is left alone. Reading goes on behind it, or in front
of the trailer of its line. -/
theorem Leaves.settled {before : Option Char} {kept rest : Text} (leaves : Leaves before kept rest) :
    ∃ skip front trailer, settle (sight before (kept ++ rest)) = .leave skip ∧
      kept = front ++ trailer ∧ skip.resume = front.length ∧
      ∀ c ∈ trailer, isTrailer c = true := by
  cases leaves with
  | @unrecognized front word _ occurs unread =>
    have decided := congrArg settle (occurs.sight_eq.trans (sightAt_unrecognized front.length unread))
    rw [settle] at decided
    refine ⟨_, front ++ word, [], decided, by simp, ?_, by simp⟩
    simp [occurs.spelled.length_eq]
  | @unclosed front word blanks _ occurs blank open' =>
    have closes : closeAt? 1 rest = none := closeAt?_one_eq_none_iff.mpr open'
    have placed : front ++ word ++ blanks ++ ['('] ++ rest = front ++ word ++ (blanks ++ '(' :: rest) := by
      simp
    have decided := (congrArg settle (occurs.sight_eq.trans
      (sightAt_parenthesized front.length blank _))).trans (settle_unclosed _ closes)
    rw [← placed] at decided
    refine ⟨_, front ++ word ++ blanks ++ ['('], [], decided, by simp, ?_, by simp⟩
    simp only [List.length_append, List.length_singleton, occurs.spelled.length_eq]
  | @arguments front word blanks arguments _ occurs blank balanced unread =>
    have ahead : front.length < front.length + raiseWord.length + blanks.length + 1 := by omega
    have placed : front ++ word ++ blanks ++ '(' :: arguments ++ [')'] ++ rest =
        front ++ word ++ (blanks ++ '(' :: (arguments ++ ')' :: rest)) := by simp
    rcases settle_parenthesized ahead balanced rest with
      ⟨reading, read, _⟩ | ⟨_, reason, settled⟩
    · exact absurd read (unread reading)
    · have decided := (congrArg settle (occurs.sight_eq.trans
        (sightAt_parenthesized front.length blank _))).trans settled
      rw [← placed] at decided
      refine ⟨_, front ++ word ++ blanks ++ '(' :: arguments ++ [')'], [], decided, by simp, ?_,
        by simp⟩
      simp only [List.length_append, List.length_cons, List.length_nil, occurs.spelled.length_eq]
      omega
  | @line front word margin line _ occurs some inline digit unbroken ends unread =>
    have ahead : front.length < front.length + raiseWord.length + margin.length :=
      Nat.lt_add_right margin.length (Nat.lt_add_of_pos_right raiseWord_length_pos)
    have atCode : (line ++ rest).head?.any isDigit = true := by
      cases line with
      | nil => simp at digit
      | cons c line => simpa using digit
    have placed : front ++ word ++ margin ++ line ++ rest =
        front ++ word ++ (margin ++ (line ++ rest)) := by simp
    rcases settle_bare ahead unbroken with
      ⟨reading, _, _, _, _, read, _⟩ | ⟨_, read, trailer, reason, same, trailing, settled⟩
    · exact absurd read (unread reading)
    · rw [← BareLine.ofText_append unbroken ends] at settled
      have decided := (congrArg settle (occurs.sight_eq.trans
        (sightAt_bare front.length some inline atCode))).trans settled
      rw [← placed] at decided
      refine ⟨_, front ++ word ++ margin ++ read, trailer, decided, by simp [same], ?_, trailing⟩
      simp only [List.length_append, occurs.spelled.length_eq]

/-- The next occurrence is replaced: it is a statement behind a part without
keywords. -/
structure Replaces (before : Option Char) (span : Span) (reading : Reading)
    (front statement rest : Text) : Prop where
  lacking : Lacks raiseWord before front (statement ++ rest)
  opened : endsWord (lastOf before front) = true
  stated : Statement span.layout span.arguments statement reading
  seam : Seam before (front ++ statement) rest
  starts : span.start = front.length
  stops : span.stop = front.length + statement.length

/-- The decision about the next occurrence, described by the parts of the text: there is none, or
it is left alone, or it is replaced. What follows the keyword decides, and there are the three
cases of a list, a code and neither. -/
theorem settle_cases (before : Option Char) (text : Text) :
    Lacks raiseWord before text [] ∨
      (∃ kept rest, text = kept ++ rest ∧ Leaves before kept rest) ∨
      (∃ span reading front statement rest, settle (sight before text) = .replace span reading ∧
        text = front ++ statement ++ rest ∧ Replaces before span reading front statement rest) := by
  rcases lacks_or_occurs before text with lacking | ⟨front, word, after, rfl, occurs⟩
  · exact .inl lacking
  · have nine := occurs.spelled.length_eq
    refine .inr ?_
    rcases after_cases after with ⟨blanks, inside, rfl, blank⟩ |
      ⟨margin, region, rfl, some, inline, digit⟩ | unread
    · cases closes : closeAt? 1 inside with
      | none =>
        refine .inl ⟨front ++ word ++ blanks ++ ['('], inside, by simp, ?_⟩
        exact .unclosed occurs blank (closeAt?_one_eq_none_iff.mp closes)
      | some offset =>
        obtain ⟨arguments, rest, rfl, rfl, balanced⟩ := closeAt?_one_eq_some_iff.mp closes
        have ahead : front.length < front.length + raiseWord.length + blanks.length + 1 := by omega
        rcases settle_parenthesized ahead balanced rest with
          ⟨reading, read, settled⟩ | ⟨unread, reason, settled⟩
        · have decided := (congrArg settle (occurs.sight_eq.trans
            (sightAt_parenthesized front.length blank _))).trans settled
          refine .inr ⟨_, reading, front, word ++ blanks ++ '(' :: arguments ++ [')'], rest, decided,
            by simp, ⟨by simpa using occurs.lacking, occurs.opened,
              .parenthesized occurs.spelled blank balanced read, .inl ?_, rfl, ?_⟩⟩
          · simp only [lastOf_append]
            rfl
          simp only [List.length_append, List.length_cons, List.length_nil, nine]
          omega
        · refine .inl ⟨front ++ word ++ blanks ++ '(' :: arguments ++ [')'], rest, by simp, ?_⟩
          exact .arguments occurs blank balanced unread
    · obtain ⟨line, rest, rfl, unbroken, ends⟩ := line_split region
      have ahead : front.length < front.length + raiseWord.length + margin.length :=
        Nat.lt_add_right margin.length (Nat.lt_add_of_pos_right raiseWord_length_pos)
      rcases settle_bare ahead unbroken with
        ⟨reading, code, gap, message, trailer, _, rfl, blank, trailing, lacking, read, settled⟩ |
        ⟨unread, _⟩
      · rw [← BareLine.ofText_append unbroken ends] at settled
        have decided := (congrArg settle (occurs.sight_eq.trans
          (sightAt_bare front.length some inline digit))).trans settled
        refine .inr ⟨_, reading, front, word ++ margin ++ (code ++ gap ++ message), trailer ++ rest,
          decided, by simp, ⟨by simpa using occurs.lacking, occurs.opened,
            .bare occurs.spelled some inline blank lacking read, .inr ?_, rfl, ?_⟩⟩
        · exact endsWord_head_of_trailer trailing ends
        simp only [List.length_append, nine]
        omega
      · refine .inl ⟨front ++ word ++ margin ++ line, rest, by simp, ?_⟩
        exact .line occurs some inline (head_digit_of_append digit ends) unbroken ends unread
    · exact .inl ⟨front ++ word, after, rfl, .unrecognized occurs unread⟩

end SqlRenewal
