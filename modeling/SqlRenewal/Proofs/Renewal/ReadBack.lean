import SqlRenewal.Proofs.Renewal.Provenance
import SqlRenewal.Proofs.Throw.ListReading

/-!
# Reading a written statement back

The message goes from one argument list into another as it stands. It is one argument
of the list that it comes from, and being balanced it is one argument of the list that
it comes to: the commas in it are enclosed by its own parentheses. So the list of a
modern statement that came of a parenthesized one is cut into a code, a message and a
state again, and which argument of the legacy list each of them was can be told from the
first one alone.
-/
namespace SqlRenewal

/-! ### One argument -/

/-- A numeral is an argument: it has no commas, parentheses or blanks, which is checked for the
sign and the ten digits. -/
theorem intText_isArgument (n : Int) : IsArgument (intText n) := by
  have other : ∀ c ∈ '-' :: decimalForms, c ≠ ',' ∧ weight c = 0 ∧ isBlank c = false := by decide
  refine ⟨uncut_of_no_comma (fun c member => (other c (intText_mem member)).1) 0,
    balanced_of_weightless fun c member => (other c (intText_mem member)).2.1, ?_⟩
  refine Text.trimWhile_eq_self fun c atEnd => ?_
  have member : c ∈ intText n := atEnd.elim List.mem_of_head? List.mem_of_getLast?
  exact (other c (intText_mem member)).2.2

/-- The message that is put where there is none is an argument. -/
theorem defaultMessage_isArgument : IsArgument defaultMessage :=
  ⟨uncut_of_no_comma (by decide) 0, balanced_of_weightless (by decide), by decide⟩

section Lists

variable {margin token : Text}

/-- An argument behind blanks is its piece, trimmed. -/
theorem IsArgument.trim_append (argument : IsArgument token) (blank : ∀ c ∈ margin, isBlank c = true) :
    Text.trim (margin ++ token) = token := by
  rw [Text.trim, Text.trimWhile, List.dropWhile_append_of_pos blank]
  exact argument.trimmed

/-- Blanks before an argument do not cut it. They have no commas and leave the depth where it was,
at zero. -/
theorem IsArgument.uncut_append (argument : IsArgument token)
    (blank : ∀ c ∈ margin, isBlank c = true) : Uncut 0 (margin ++ token) := by
  have noComma : ∀ c ∈ margin, c ≠ ',' := by
    rintro c member rfl
    exact absurd (blank _ member) (by decide)
  rw [SqlRenewal.uncut_append, (balanced_of_blank blank).foldl_depthAfter_eq_zero]
  exact ⟨uncut_of_no_comma noComma 0, argument.uncut⟩

/-- The last argument of a list. -/
theorem IsArgument.splitArguments_last (argument : IsArgument token)
    (blank : ∀ c ∈ margin, isBlank c = true) : splitArguments (margin ++ token) = [token] := by
  have uncut : cutArguments 0 (margin ++ token) = (margin ++ token, []) := argument.uncut_append blank
  simp [splitArguments, argumentPieces, uncut, argument.trim_append blank]

/-- An argument in front of a comma. -/
theorem IsArgument.splitArguments_cons (argument : IsArgument token)
    (blank : ∀ c ∈ margin, isBlank c = true) (rest : Text) :
    splitArguments (margin ++ token ++ ',' :: rest) = token :: splitArguments rest := by
  have balanced := (balanced_of_blank blank).append argument.balanced
  rw [splitArguments, argumentPieces_append balanced (argument.uncut_append blank), List.map_cons,
    argument.trim_append blank, splitArguments]

end Lists

/-- The list of a modern statement is a code, a message and a state. -/
theorem splitArguments_body {reading : Reading} (argument : IsArgument reading.message) :
    splitArguments reading.body = [intText reading.code, reading.message, intText reading.state] := by
  have space : ∀ c ∈ [' '], isBlank c = true := by decide
  have none : ∀ c ∈ ([] : Text), isBlank c = true := by simp
  have body : reading.body = [] ++ intText reading.code ++ ',' ::
      ([' '] ++ reading.message ++ ',' :: ([' '] ++ intText reading.state)) := by
    simp [Reading.body]
  rw [body, (intText_isArgument reading.code).splitArguments_cons none,
    argument.splitArguments_cons space, (intText_isArgument reading.state).splitArguments_last space]

/-! ### Which argument is which -/

/-- The reading is made of the arguments of a legacy list by these rules. -/
structure Modernises (tokens : List Text) (reading : Reading) : Prop where
  /-- A literal in the first place is the code, unless it is too low, and the message stands
  in the fourth place, unless nothing does. -/
  literal : ∀ value, Denotes (tokens.headD []) value →
    reading.code = max 50000 value ∧
      reading.message = (if tokens.getD 3 [] = [] then defaultMessage else tokens.getD 3 []) ∧
      reading.dropped = tokens.drop 4
  /-- Anything else in the first place is the message. -/
  reference : (∀ value, ¬ Denotes (tokens.headD []) value) →
    reading.code = 50000 ∧ reading.message = tokens.headD [] ∧ reading.dropped = tokens.drop 3
  /-- A literal in the third place is the state. -/
  state : ∀ token value, tokens[2]? = some token → Denotes token value → reading.state = value
  /-- Without a literal there the state is the default. -/
  stateless : (∀ token value, tokens[2]? = some token → ¬ Denotes token value) → reading.state = 1

/-- The reading of a list of arguments modernises them: the first argument is the code or the
message, the third one the state, and all others are kept or dropped as the rules for statements
say. -/
theorem listReading_modernises {text : Text} {literal : Option Int} {state : Int}
    (first : readLiteral ((splitArguments text).headD []) = .ok literal)
    (third : readState (splitArguments text)[2]? = .ok state) :
    Modernises (splitArguments text) (listReading text state literal) := by
  have trimmed := trim_of_mem_splitArguments (headD_mem_splitArguments text)
  have state_of {token : Text} (listed : (splitArguments text)[2]? = some token) :
      ∃ number, readLiteral token = .ok number ∧ Text.trim token = token ∧
        (listReading text state literal).state = number.getD 1 := by
    have same : (listReading text state literal).state = state := by cases literal <;> rfl
    rcases readState_eq_ok third with ⟨none, _⟩ | ⟨other, number, found, read, value⟩
    · rw [listed] at none
      cases none
    · obtain rfl : token = other := Option.some.inj (listed.symm.trans found)
      exact ⟨number, read, trim_third listed, same.trans value⟩
  refine ⟨?_, ?_, ?_, ?_⟩
  · intro value denotes
    cases literal with
    | none => exact absurd denotes (trimmed ▸ not_denotes_of_readLiteral first value)
    | some number =>
      obtain rfl := (trimmed ▸ readLiteral_denotes first).unique denotes
      refine ⟨max_comm _ _, ?_, rfl⟩
      simp only [listReading, List.getD_eq_getElem?_getD]
      cases (splitArguments text)[3]? with
      | none => rfl
      | some token => by_cases empty : token = [] <;> simp [Option.filter, empty]
  · intro other
    cases literal with
    | none => exact ⟨rfl, rfl, rfl⟩
    | some number => exact absurd (trimmed ▸ readLiteral_denotes first) (other number)
  · intro token value listed denotes
    obtain ⟨number, read, own, same⟩ := state_of listed
    cases number with
    | none => exact absurd denotes (own ▸ not_denotes_of_readLiteral read value)
    | some number =>
      obtain rfl := (own ▸ readLiteral_denotes read).unique denotes
      exact same
  · intro other
    cases listed : (splitArguments text)[2]? with
    | none =>
      rw [listed] at third
      cases third
      cases literal <;> rfl
    | some token =>
      obtain ⟨number, read, own, same⟩ := state_of listed
      cases number with
      | none => exact same
      | some number => exact absurd (own ▸ readLiteral_denotes read) (other token number listed)

/-- The message is an argument of its own. -/
theorem readArguments_message_isArgument {text : Text} {reading : Reading} (balanced : Balanced text)
    (read : readArguments text = .ok reading) : IsArgument reading.message := by
  rcases readArguments_message read with default | member
  · rw [default]
    exact defaultMessage_isArgument
  · exact isArgument_of_mem balanced member

/-- Every code that is read is one that a statement may throw: lower ones are raised to the
lowest. -/
theorem lowestCode_le_code {text : Text} {reading : Reading} (read : readArguments text = .ok reading) :
    50000 ≤ reading.code := by
  obtain ⟨literal, state, _, _, rfl⟩ := readArguments_eq_ok read
  cases literal with
  | none => exact Int.le_refl _
  | some value => exact Int.le_max_right _ _

/-- The flag of dropped arguments is set with the arguments that a reading drops, if there are
any. -/
theorem droppedArguments_mem_readingFlags {span : Span} {reading : Reading} {tail : Text}
    {dropped : List Text} :
    .droppedArguments dropped ∈ readingFlags span reading tail ↔
      dropped = reading.dropped ∧ dropped ≠ [] := by
  simp only [readingFlags, List.mem_append]
  constructor
  · rintro ((member | member) | member)
    · split at member <;> simp at member
    · split at member
      · simp at member
      · obtain rfl : dropped = reading.dropped := by simpa using member
        exact ⟨rfl, ‹_›⟩
    · split at member <;> simp at member
  · rintro ⟨rfl, some⟩
    simp [some]

/-! ### Replaced lists -/

/-- Every replacement of a parenthesized statement is a list of three arguments: a code from 50000
on, the message and the state, which the arguments of the statement determine. The message is one
of the arguments, so it is balanced and cut nowhere, and the splitter finds the three again. -/
theorem renew_throws_read_back {rules : List Rule} {text : Text} {statement : Replacement}
    (replaced : statement ∈ (renew rules text).replacements)
    (form : statement.form = .parenthesized) :
    ∃ front opening arguments rest reading,
      text = front ++ statement.before ++ rest ∧
      statement.before = opening ++ '(' :: arguments ++ [')'] ∧ '(' ∉ opening ∧
      readArguments arguments = .ok reading ∧
      statement.after = ";THROW ".toList ++ reading.body ∧ statement.code = reading.code ∧
      splitArguments reading.body =
        [intText reading.code, reading.message, intText reading.state] ∧
      Denotes (intText reading.code) reading.code ∧
      Denotes (intText reading.state) reading.state ∧
      50000 ≤ reading.code ∧ Modernises (splitArguments arguments) reading ∧
      ∀ dropped, .droppedArguments dropped ∈ statement.flags ↔
        dropped = reading.dropped ∧ dropped ≠ [] := by
  obtain ⟨edit, member, same⟩ := List.mem_filterMap.mp replaced
  cases edit with
  | skipped skip => cases same
  | replaced other =>
    cases same
    obtain ⟨earlier, later, edits⟩ := List.append_of_mem member
    obtain ⟨front, span, reading, rest, split, records, _⟩ := reviseFrom_records edits
    obtain ⟨stated, sameForm, after, flags, code⟩ := records
    obtain ⟨start, stop, arguments, layout, _⟩ := span
    cases layout with
    | bare code message =>
      rw [sameForm] at form
      cases form
    | parenthesized =>
      generalize written : statement.before = before at stated split
      cases stated with
      | @parenthesized word blanks _ _ spelled blank balanced read =>
        obtain ⟨literal, state, first, third, listed⟩ := readArguments_eq_ok read.2
        refine ⟨front, word ++ blanks, arguments, rest, reading, split, by simp,
          spelled.no_parenthesis blank, read.2, after, code,
          splitArguments_body (readArguments_message_isArgument balanced read.2),
          denotes_intText _, denotes_intText _, lowestCode_le_code read.2,
          listed ▸ listReading_modernises first third, ?_⟩
        intro dropped
        rw [flags]
        exact droppedArguments_mem_readingFlags

/-- The comma in the message is enclosed by its parentheses, there and here. -/
theorem renew_throws_read_back_call :
    let text : Text := "RAISERROR(7,1,-2,f(a,b),x)".toList
    let statement : Replacement := ⟨0, .parenthesized, text, ";THROW 50000, f(a,b), -2".toList,
      50000, some ['1'], [.droppedArguments [['x']]]⟩
    (renew [] text).replacements = [statement] ∧
      ∃ arguments reading, readArguments arguments = .ok reading ∧
        statement.after = ";THROW ".toList ++ reading.body ∧
        splitArguments reading.body =
          [intText reading.code, reading.message, intText reading.state] ∧
        Modernises (splitArguments arguments) reading := by
  intro text statement
  let span : Span := ⟨0, 26, "7,1,-2,f(a,b),x".toList, .parenthesized, by decide⟩
  let reading : Reading :=
    ⟨.literal 50000, "f(a,b)".toList, -2, ⟨span.arguments, ['7'], some ['1'], some ['-', '2'],
      some "f(a,b)".toList⟩, some ['1'], [['x']]⟩
  have sighted : sight none text = .found span := by decide
  have read : readSpan span = .ok reading := by cbv
  have decided : settle (sight none text) = .replace span reading := by
    rw [sighted, settle, read]
  have written : reading.render = ";THROW 50000, f(a,b), -2".toList := by cbv
  have flags : readingFlags span reading [] = [.droppedArguments [['x']]] := by cbv
  have behind : text.drop span.stop = [] := by rfl
  have replaced : (renew [] text).replacements = [statement] := by
    have edits : (revise text).edits = [.replaced statement] := by
      rw [revise, reviseFrom_replace decided, behind,
        reviseFrom_done (lacks_of_no_opening (by simp) _ _), written, flags]
      rfl
    rw [Report.replacements, renew, edits]
    rfl
  have member : statement ∈ (renew [] text).replacements := by
    rw [replaced]
    exact List.mem_singleton_self statement
  obtain ⟨_, _, arguments, _, reading, _, _, _, read, after, _, back, _, _, _, modern, _⟩ :=
    renew_throws_read_back member rfl
  exact ⟨replaced, arguments, reading, read, after, back, modern⟩

end SqlRenewal
