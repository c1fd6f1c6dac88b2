import SqlRenewal.Proofs.Raise.Statement

/-!
# The reading of an argument list

What each argument of a list comes to. A list without a first argument has no reading,
nor has one whose first or third argument is a numeral with too many digits; every other
list is read. The code and the state of a reading never need more digits than are
converted, so a reading can always be written.
-/
namespace SqlRenewal

/-! ### The first and the third argument -/

/-- What the value of the first argument, if it is a literal, makes of it. -/
def codeSource (token : Text) : Option Int → CodeSource
  | none => .reference token
  | some value => .literal (max value lowestCode)

/-- A variable or a parenthesis only foretells that the argument is no literal, so to test for
them first makes no difference. -/
theorem readCode_eq (token : Text) :
    readCode token = (readLiteralOr token).map (codeSource token) := by
  have numberless {c : Char} (contained : token.contains c = true) (other : isNumeric c = false) :
      readLiteralOr token = .ok none :=
    readLiteralOr_ok (readLiteral_of_not_isNumeric (List.contains_iff_mem.mp contained) other)
  unfold readCode
  split
  · rename_i marked
    simp only [Bool.or_eq_true] at marked
    have literal : readLiteralOr token = .ok none := by
      rcases marked with (named | opening) | closing
      · exact numberless named (by decide)
      · exact numberless opening (by decide)
      · exact numberless closing (by decide)
    rw [literal]
    rfl
  · cases readLiteralOr token with
    | error reason => rfl
    | ok literal => cases literal <;> rfl

/-- A literal that is read succeeds exactly as the reader of literals does; only the failure is
put in other words. -/
theorem readLiteralOr_eq_ok_iff {text : Text} {value : Option Int} :
    readLiteralOr text = .ok value ↔ readLiteral text = .ok value := by
  cases literal : readLiteral text with
  | error overflow => simp [readLiteralOr_error literal]
  | ok value => simp [readLiteralOr_ok literal]

/-- What the third argument, if there is one, makes of the state. -/
theorem readState_some (token : Text) :
    readState (some token) = (readLiteralOr token).map (·.getD defaultState) := rfl

/-- A state fails exactly if there is a third argument, and it is a number that is too long. -/
theorem readState_eq_error_iff {third : Option Text} {reason : Reason} :
    readState third = .error reason ↔ ∃ token overflow, third = some token ∧
      readLiteral token = .error overflow ∧ reason = .digitOverflow overflow := by
  cases third with
  | none => simp [readState]
  | some token =>
    rw [readState_some]
    cases literal : readLiteral token with
    | error overflow => simp [readLiteralOr_error literal, Except.map, literal, eq_comm]
    | ok value => simp [readLiteralOr_ok literal, Except.map, literal]

/-- A state is that of the third argument, or the default where there is no third argument or no
number. -/
theorem readState_eq_ok {third : Option Text} {state : Int} (read : readState third = .ok state) :
    (third = none ∧ state = defaultState) ∨
      ∃ token literal, third = some token ∧ readLiteral token = .ok literal ∧
        state = literal.getD defaultState := by
  cases third with
  | none =>
    cases read
    exact .inl ⟨rfl, rfl⟩
  | some token =>
    rw [readState_some] at read
    cases literal : readLiteral token with
    | error overflow => simp [readLiteralOr_error literal, Except.map] at read
    | ok value =>
      simp only [readLiteralOr_ok literal, Except.map, Except.ok.injEq] at read
      exact .inr ⟨token, value, rfl, literal, read.symm⟩

/-! ### The whole list -/

/-- The arguments of a list are trimmed already. -/
theorem trim_of_mem_splitArguments {text token : Text} (member : token ∈ splitArguments text) :
    Text.trim token = token := by
  obtain ⟨piece, _, rfl⟩ := List.mem_map.mp member
  exact Text.trimWhile_trimWhile isBlank piece

/-- There is always a first argument, if only an empty one. -/
theorem headD_mem_splitArguments (text : Text) : (splitArguments text).headD [] ∈ splitArguments text := by
  simp [splitArguments, argumentPieces]

/-- The reading of a list whose first argument has the given value, if it is a literal. -/
def listReading (text : Text) (state : Int) : Option Int → Reading
  | some value =>
    let tokens := splitArguments text
    ⟨.literal (max value lowestCode), (tokens[3]?.filter (· ≠ [])).getD defaultMessage, state,
      ⟨text, tokens.headD [], tokens[1]?, tokens[2]?, tokens[3]?⟩, tokens[1]?, tokens.drop 4⟩
  | none =>
    let tokens := splitArguments text
    ⟨.reference (tokens.headD []), tokens.headD [], state,
      ⟨text, tokens.headD [], tokens[1]?, tokens[2]?, tokens[3]?⟩, tokens[1]?, tokens.drop 3⟩

/-- A list is read in this order: its first argument, then its third. The cases are those of the
two readings. -/
theorem readArguments_eq (text : Text) :
    readArguments text =
      if (splitArguments text).headD [] = [] then .error .emptyArgument
      else (readLiteralOr ((splitArguments text).headD [])).bind fun literal =>
        (readState (splitArguments text)[2]?).map fun state => listReading text state literal := by
  simp only [readArguments]
  split
  · rfl
  · rw [readCode_eq]
    cases readLiteralOr ((splitArguments text).headD []) with
    | error reason => rfl
    | ok literal =>
      cases readState (splitArguments text)[2]? with
      | error reason => rfl
      | ok state => cases literal <;> rfl

/-- What a list is read as follows from its first and its third argument: both have been read
without a fault. -/
theorem readArguments_eq_ok {text : Text} {reading : Reading}
    (read : readArguments text = .ok reading) :
    ∃ literal state, readLiteral ((splitArguments text).headD []) = .ok literal ∧
      readState (splitArguments text)[2]? = .ok state ∧ reading = listReading text state literal := by
  rw [readArguments_eq] at read
  split at read
  · cases read
  · cases code : readLiteralOr ((splitArguments text).headD []) with
    | error reason => simp only [code, Except.bind, reduceCtorEq] at read
    | ok literal =>
      cases number : readState (splitArguments text)[2]? with
      | error reason => simp only [code, number, Except.bind, Except.map, reduceCtorEq] at read
      | ok state =>
        simp only [code, number, Except.bind, Except.map, Except.ok.injEq] at read
        exact ⟨literal, state, readLiteralOr_eq_ok_iff.mp code, rfl, read.symm⟩

/-- A list has no reading for one of few reasons: the first argument is empty, or the first or the
third one is a number that is too long. They are asked for in this order. -/
theorem readArguments_eq_error_iff {text : Text} {reason : Reason} :
    readArguments text = .error reason ↔
      ((splitArguments text).headD [] = [] ∧ reason = .emptyArgument) ∨
        ((splitArguments text).headD [] ≠ [] ∧
          ((∃ overflow, readLiteral ((splitArguments text).headD []) = .error overflow ∧
              reason = .digitOverflow overflow) ∨
            ((∃ literal, readLiteral ((splitArguments text).headD []) = .ok literal) ∧
              ∃ token overflow, (splitArguments text)[2]? = some token ∧
                readLiteral token = .error overflow ∧ reason = .digitOverflow overflow))) := by
  rw [readArguments_eq, ← readState_eq_error_iff]
  split
  · rename_i absent
    simp only [absent, true_and, ne_eq, not_true_eq_false, false_and, or_false]
    exact ⟨fun same => (Except.error.inj same).symm, fun same => same ▸ rfl⟩
  · rename_i present
    simp only [present, false_and, false_or, ne_eq, not_false_eq_true, true_and]
    cases code : readLiteral ((splitArguments text).headD []) with
    | error overflow =>
      rw [readLiteralOr_error code]
      simp [Except.bind, eq_comm]
    | ok literal =>
      rw [readLiteralOr_ok code]
      cases readState (splitArguments text)[2]? <;> simp [Except.bind, Except.map]

/-! ### Bare statements -/

/-- A bare statement that is read has a number for its code, raised to the lowest code at least,
and the default state. -/
theorem readBare_eq_ok_code {code message : Text} {reading : Reading}
    (read : readBare code message = .ok reading) :
    ∃ value, readLiteral code = .ok (some value) ∧ reading.code = max value lowestCode ∧
      reading.state = defaultState := by
  obtain ⟨_, value, literal⟩ := readBare_eq_ok read
  refine ⟨value, literal, ?_⟩
  simp only [readBare, readLiteralOr_ok literal, bind, Except.bind, pure, Except.pure,
    Except.ok.injEq] at read
  subst read
  exact ⟨rfl, rfl⟩

/-- Why a bare statement has no reading: its code is no number, or a number of too many digits.
The message is taken as it stands and is no reason. -/
theorem readBare_eq_error_iff {code message : Text} {reason : Reason} :
    readBare code message = .error reason ↔
      (readLiteral code = .ok none ∧ reason = .notANumber code) ∨
        ∃ overflow, readLiteral code = .error overflow ∧ reason = .digitOverflow overflow := by
  unfold readBare
  cases literal : readLiteral code with
  | error overflow => simp [readLiteralOr_error literal, bind, Except.bind, eq_comm]
  | ok value =>
    cases value <;>
      simp [readLiteralOr_ok literal, bind, Except.bind, pure, Except.pure, eq_comm]

/-! ### Refusals -/

/-- Why the arguments of a statement are not read: the first one of a list is missing, the
code or the state is a numeral with more digits than are converted, or the code of a bare
statement is no numeral. -/
inductive Refusal (span : Span) : Reason → Prop where
  | emptyArgument (list : span.layout = .parenthesized)
      (empty : (splitArguments span.arguments).headD [] = []) : Refusal span .emptyArgument
  | longCode {numeral : Numeral} (list : span.layout = .parenthesized)
      (written : numeral.WrittenAs ((splitArguments span.arguments).headD []))
      (long : digitLimit < numeral.digits.length) :
      Refusal span (.digitOverflow ⟨numeral.digits.length⟩)
  | longState {token : Text} {numeral : Numeral} (list : span.layout = .parenthesized)
      (present : (splitArguments span.arguments).headD [] ≠ [])
      (short : ∀ code : Numeral, code.WrittenAs ((splitArguments span.arguments).headD []) →
        code.digits.length ≤ digitLimit)
      (third : (splitArguments span.arguments)[2]? = some token) (written : numeral.WrittenAs token)
      (long : digitLimit < numeral.digits.length) :
      Refusal span (.digitOverflow ⟨numeral.digits.length⟩)
  | notANumber {code message : Text} (bare : span.layout = .bare code message)
      (other : ∀ numeral : Numeral, ¬ numeral.WrittenAs (Text.trim code)) :
      Refusal span (.notANumber code)
  | longNumber {code message : Text} {numeral : Numeral} (bare : span.layout = .bare code message)
      (written : numeral.WrittenAs (Text.trim code)) (long : digitLimit < numeral.digits.length) :
      Refusal span (.digitOverflow ⟨numeral.digits.length⟩)

/-- A third argument is trimmed already. -/
theorem trim_third {text token : Text} (listed : (splitArguments text)[2]? = some token) :
    Text.trim token = token :=
  trim_of_mem_splitArguments (List.mem_of_getElem? listed)

/-- A statement without a reading is refused, with the reason that the reader gives. The cases are
the layouts, and in each of them the ways in which its reader fails. -/
theorem refusal_of_readSpan {span : Span} {reason : Reason}
    (refused : readSpan span = .error reason) : Refusal span reason := by
  have first := trim_of_mem_splitArguments (headD_mem_splitArguments span.arguments)
  unfold readSpan at refused
  cases layout : span.layout with
  | parenthesized =>
    rw [layout] at refused
    rcases readArguments_eq_error_iff.mp refused with ⟨empty, rfl⟩ | ⟨present, cause⟩
    · exact .emptyArgument layout empty
    · rcases cause with ⟨_, code, rfl⟩ | ⟨code, token, _, listed, state, rfl⟩
      · obtain ⟨numeral, written, long, rfl⟩ := readLiteral_eq_error_iff.mp code
        exact .longCode layout (first ▸ written) long
      · obtain ⟨numeral, written, long, rfl⟩ := readLiteral_eq_error_iff.mp state
        have short := exists_readLiteral_eq_ok_iff.mp code
        rw [first] at short
        exact .longState layout present short listed (trim_third listed ▸ written) long
  | bare code message =>
    rw [layout] at refused
    rcases readBare_eq_error_iff.mp refused with ⟨other, rfl⟩ | ⟨_, literal, rfl⟩
    · exact .notANumber layout (readLiteral_eq_none_iff.mp other)
    · obtain ⟨numeral, written, long, rfl⟩ := readLiteral_eq_error_iff.mp literal
      exact .longNumber layout written long

/-- A statement that is refused has no reading, since the refusals are the ways in which the
reader fails. -/
theorem Refusal.readSpan_eq {span : Span} {reason : Reason} (refusal : Refusal span reason) :
    readSpan span = .error reason := by
  have first := trim_of_mem_splitArguments (headD_mem_splitArguments span.arguments)
  unfold readSpan
  cases refusal with
  | emptyArgument list empty =>
    rw [list]
    exact readArguments_eq_error_iff.mpr (.inl ⟨empty, rfl⟩)
  | @longCode numeral list written long =>
    have code := readLiteral_eq_error_iff.mpr ⟨numeral, first.symm ▸ written, long, rfl⟩
    rw [list]
    exact readArguments_eq_error_iff.mpr (.inr ⟨written.ne_nil, .inl ⟨_, code, rfl⟩⟩)
  | @longState token numeral list present short listed written long =>
    have code := exists_readLiteral_eq_ok_iff.mpr (first.symm ▸ short)
    have state :=
      readLiteral_eq_error_iff.mpr ⟨numeral, (trim_third listed).symm ▸ written, long, rfl⟩
    rw [list]
    exact readArguments_eq_error_iff.mpr
      (.inr ⟨present, .inr ⟨code, token, _, listed, state, rfl⟩⟩)
  | notANumber bare other =>
    rw [bare]
    exact readBare_eq_error_iff.mpr (.inl ⟨readLiteral_eq_none_iff.mpr other, rfl⟩)
  | @longNumber code message numeral bare written long =>
    have literal := readLiteral_eq_error_iff.mpr ⟨numeral, written, long, rfl⟩
    rw [bare]
    exact readBare_eq_error_iff.mpr (.inr ⟨_, literal, rfl⟩)

/-- A statement has no reading exactly if it is refused, for the same reason. -/
theorem readSpan_eq_error_iff {span : Span} {reason : Reason} :
    readSpan span = .error reason ↔ Refusal span reason :=
  ⟨refusal_of_readSpan, Refusal.readSpan_eq⟩

/-! ### The digits of a reading -/

/-- The lowest code has five digits. -/
theorem digitCount_lowestCode : digitCount lowestCode = 5 := by
  simp [digitCount, lowestCode, natDigits]

/-- The default state has one digit. -/
theorem digitCount_defaultState : digitCount defaultState = 1 := by
  simp [digitCount, defaultState, natDigits]

/-- Raising a literal to the lowest code takes no more digits than are converted. -/
theorem digitCount_max_lowestCode {text : Text} {value : Int}
    (literal : readLiteral text = .ok (some value)) :
    digitCount (max value lowestCode) ≤ digitLimit := by
  rcases Int.le_total value lowestCode with low | high
  · rw [Int.max_eq_right low, digitCount_lowestCode]
    decide
  · rw [Int.max_eq_left high]
    exact readLiteral_digitCount literal

/-- Every state that is read can be written: it has no more digits than were read, or is the
default. -/
theorem readState_digitCount {third : Option Text} {state : Int}
    (read : readState third = .ok state) : digitCount state ≤ digitLimit := by
  have default : digitCount defaultState ≤ digitLimit := by
    rw [digitCount_defaultState]
    decide
  rcases readState_eq_ok read with ⟨_, rfl⟩ | ⟨token, literal, _, value, rfl⟩
  · exact default
  · cases literal with
    | none => exact default
    | some number => exact readLiteral_digitCount value

/-- The code and the state of every reading can be written: each is a number that was short enough
to be read, or a built-in one. -/
theorem readSpan_digitCount {span : Span} {reading : Reading}
    (read : readSpan span = .ok reading) :
    digitCount reading.code ≤ digitLimit ∧ digitCount reading.state ≤ digitLimit := by
  unfold readSpan at read
  cases layout : span.layout with
  | bare code message =>
    rw [layout] at read
    obtain ⟨value, literal, sameCode, sameState⟩ := readBare_eq_ok_code read
    rw [sameCode, sameState, digitCount_defaultState]
    exact ⟨digitCount_max_lowestCode literal, by decide⟩
  | parenthesized =>
    rw [layout] at read
    obtain ⟨literal, state, first, third, rfl⟩ := readArguments_eq_ok read
    cases literal with
    | none =>
      have lowest : digitCount lowestCode ≤ digitLimit := by
        rw [digitCount_lowestCode]
        decide
      exact ⟨lowest, readState_digitCount third⟩
    | some value => exact ⟨digitCount_max_lowestCode first, readState_digitCount third⟩

end SqlRenewal
