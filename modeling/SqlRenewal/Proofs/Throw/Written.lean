import SqlRenewal.Proofs.Throw.Tokens
import SqlRenewal.Proofs.Raise.Keyword

/-!
# The written statement

What a modern statement brings into the text: a code, a message and a state,
between marks that belong to no word. It holds a legacy keyword only if its
message does, its parentheses are those of the message, and it ends with a digit.

A reading exists exactly if the numbers among the arguments can be converted; its
message is one of the arguments, the default, or the message of a bare statement.
-/
namespace SqlRenewal

/-! ### Written integers -/

/-- The characters of a written integer. -/
def decimalForms : List Char :=
  ['0', '1', '2', '3', '4', '5', '6', '7', '8', '9']

/-- The digits below ten are written with the ten plain digits. -/
theorem decimalForms_of_lt : ∀ n < 10, Char.ofNat (0x30 + n) ∈ decimalForms := by decide

/-- A natural number is written in digits, with a digit at the end. The induction follows the
writing, which puts the last digit behind those of the quotient. -/
theorem natDigits_forms (n : Nat) : ∃ front last, natDigits n = front ++ [last] ∧
    (∀ c ∈ front, c ∈ decimalForms) ∧ last ∈ decimalForms := by
  induction n using natDigits.induct with
  | case1 n small => exact ⟨[], _, by rw [natDigits, if_pos small]; rfl, by simp, decimalForms_of_lt n small⟩
  | case2 n large inductionHypothesis =>
    obtain ⟨front, last, same, digits, lastDigit⟩ := inductionHypothesis
    refine ⟨natDigits (n / 10), _, by rw [natDigits, if_neg large], ?_,
      decimalForms_of_lt (n % 10) (by omega)⟩
    intro c member
    rw [same] at member
    rcases List.mem_append.mp member with early | late
    · exact digits c early
    · rw [List.mem_singleton.mp late]
      exact lastDigit

/-- An integer is written in digits behind an optional sign, with a digit at the end. -/
theorem intText_forms (n : Int) : ∃ front last, intText n = front ++ [last] ∧
    (∀ c ∈ front, c ∈ '-' :: decimalForms) ∧ last ∈ decimalForms := by
  cases n with
  | ofNat n =>
    obtain ⟨front, last, same, digits, lastDigit⟩ := natDigits_forms n
    exact ⟨front, last, same, fun c member => List.mem_cons_of_mem _ (digits c member), lastDigit⟩
  | negSucc n =>
    obtain ⟨front, last, same, digits, lastDigit⟩ := natDigits_forms (n + 1)
    refine ⟨'-' :: front, last, by rw [intText, same]; rfl, ?_, lastDigit⟩
    intro c member
    rcases List.mem_cons.mp member with rfl | later
    · exact List.mem_cons_self
    · exact List.mem_cons_of_mem _ (digits c later)

/-- A numeral is written with plain digits and a sign. The sign is part of the front, the last
character is a digit. -/
theorem intText_mem {n : Int} {c : Char} (member : c ∈ intText n) : c ∈ '-' :: decimalForms := by
  obtain ⟨front, last, same, digits, lastDigit⟩ := intText_forms n
  rw [same] at member
  rcases List.mem_append.mp member with early | late
  · exact digits c early
  · rw [List.mem_singleton.mp late]
    exact List.mem_cons_of_mem _ lastDigit

/-! ### Around the message -/

/-- What a modern statement has in front of its message. -/
def Reading.opening (reading : Reading) : Text :=
  [';', 'T', 'H', 'R', 'O', 'W', ' '] ++ intText reading.code ++ [',', ' ']

/-- What a modern statement has behind its message. -/
def Reading.closing (reading : Reading) : Text :=
  [',', ' '] ++ intText reading.state

/-- A rendered statement is its message between a fixed beginning and the numbers. -/
theorem Reading.render_eq (reading : Reading) :
    reading.render = reading.opening ++ reading.message ++ reading.closing := by
  simp [render, body, opening, closing]

/-- The characters around a message. -/
def frameForms : List Char :=
  [';', 'T', 'H', 'R', 'O', 'W', ' ', ',', '-'] ++ decimalForms

/-- The characters of a numeral are among those of the frame. -/
theorem mem_frameForms_of_intText {n : Int} {c : Char} (member : c ∈ intText n) :
    c ∈ frameForms := by
  rcases List.mem_cons.mp (intText_mem member) with rfl | digit
  · decide
  · exact List.mem_append_right _ digit

/-- What stands before the message is made of characters of the frame: the keyword, a numeral and
the comma. -/
theorem Reading.opening_mem (reading : Reading) : ∀ c ∈ reading.opening, c ∈ frameForms := by
  intro c member
  simp only [opening, List.mem_append] at member
  rcases member with (keyword | number) | comma
  · exact (by decide : [';', 'T', 'H', 'R', 'O', 'W', ' '] ⊆ frameForms) keyword
  · exact mem_frameForms_of_intText number
  · exact (by decide : [',', ' '] ⊆ frameForms) comma

/-- What stands behind the message is made of characters of the frame. -/
theorem Reading.closing_mem (reading : Reading) : ∀ c ∈ reading.closing, c ∈ frameForms := by
  intro c member
  rcases List.mem_append.mp member with comma | number
  · exact (by decide : [',', ' '] ⊆ frameForms) comma
  · exact mem_frameForms_of_intText number

/-- The frame contains no parentheses. -/
theorem frameForms_weight : ∀ c ∈ frameForms, weight c = 0 := by decide

/-- The parentheses of a written statement are those of its message. What stands around the
message is made of characters without weight. -/
theorem Reading.balance_render (reading : Reading) :
    balance reading.render = balance reading.message := by
  have front : balance reading.opening = 0 :=
    balance_of_weightless fun c member => frameForms_weight c (reading.opening_mem c member)
  have back : balance reading.closing = 0 :=
    balance_of_weightless fun c member => frameForms_weight c (reading.closing_mem c member)
  simp [reading.render_eq, front, back]

/-- A rendered statement stays above zero where its message does, since the frame around it has no
parentheses. -/
theorem Reading.staysAbove_render {depth : Int} (start : 0 ≤ depth) {reading : Reading}
    (above : StaysAbove depth reading.message) : StaysAbove depth reading.render := by
  have front : Balanced reading.opening :=
    balanced_of_weightless fun c member => frameForms_weight c (reading.opening_mem c member)
  have back : Balanced reading.closing :=
    balanced_of_weightless fun c member => frameForms_weight c (reading.closing_mem c member)
  rw [reading.render_eq, List.append_assoc, front.staysAbove_append_iff start, staysAbove_append]
  refine ⟨above, ?_⟩
  have level : 0 ≤ depth + balance reading.message := above _ (List.prefix_refl _)
  exact back.1.mono level

/-- A modern statement lacks the legacy keyword if its message does: the frame around it has other
letters, and none of them joins the message. -/
theorem Reading.lacks_render {reading : Reading}
    (lacking : Lacks raiseWord none reading.message []) (before : Option Char) (rest : Text) :
    Lacks raiseWord before reading.render rest := by
  have noOpening : ∀ c ∈ [';', 'T', 'H', ' ', ',', '-'] ++ decimalForms, writes 'R' c = false := by
    decide
  have number (n : Int) (b : Option Char) (r : Text) : Lacks raiseWord b (intText n) r := by
    apply lacks_of_no_opening
    intro c member
    apply noOpening
    rcases List.mem_cons.mp (intText_mem member) with rfl | digit
    · decide
    · exact List.mem_append_right _ digit
  have comma (b : Option Char) (r : Text) : Lacks raiseWord b [',', ' '] r :=
    lacks_of_no_opening (fun c member => noOpening c
      ((by decide : [',', ' '] ⊆ [';', 'T', 'H', ' ', ',', '-'] ++ decimalForms) member)) b r
  have keyword (b : Option Char) (r : Text) :
      Lacks raiseWord b ([';', 'T', 'H'] ++ (['R', 'O', 'W'] ++ [' '])) r := by
    rw [lacks_append, lacks_append]
    refine ⟨?_, ?_, ?_⟩
    · exact lacks_of_no_opening (by decide) b _
    · exact lacks_of_inside (by simp only [lastOf_cons, lastOf_nil]; decide) (by decide) _
    · exact lacks_of_no_opening (by decide) _ _
  have message : Lacks raiseWord (some ' ') reading.message (reading.closing ++ rest) := by
    have outside : endsWord (reading.closing ++ rest).head? = true := by
      simp [closing, endsWord]
      decide
    rw [lacks_iff_alone raiseWord_known (.inr outside)]
    exact (lacks_congr_before (by decide)).mp lacking
  have ending : lastOf before reading.opening = some ' ' := by
    simp [opening, lastOf_append]
  rw [reading.render_eq, lacks_append, lacks_append, ending]
  refine ⟨⟨?_, message⟩, ?_⟩
  · rw [opening, lacks_append, lacks_append]
    exact ⟨⟨keyword before _, number _ _ _⟩, comma _ _⟩
  · rw [closing, lacks_append]
    exact ⟨comma _ _, number _ _ _⟩

/-- A written statement ends with a digit, so no keyword begins right behind it. -/
theorem Reading.endsWord_render (reading : Reading) (before : Option Char) :
    endsWord (lastOf before reading.render) = false := by
  obtain ⟨front, last, same, _, digit⟩ := intText_forms reading.state
  have word : ∀ c ∈ decimalForms, isWordChar c = true := by decide
  rw [reading.render_eq, closing, same]
  simp [lastOf_append, endsWord, word last digit]

/-! ### Readings -/

/-- A literal that is read is a success. -/
theorem readLiteralOr_ok {text : Text} {value : Option Int} (literal : readLiteral text = .ok value) :
    readLiteralOr text = .ok value := by
  rw [readLiteralOr, literal]
  rfl

/-- A literal that is too long is a failure with that reason. -/
theorem readLiteralOr_error {text : Text} {overflow : DigitOverflow}
    (literal : readLiteral text = .error overflow) :
    readLiteralOr text = .error (.digitOverflow overflow) := by
  rw [readLiteralOr, literal]
  rfl

/-- A bare statement has a reading exactly if its code is an integer literal; the
message stays. -/
theorem readBare_eq_ok {code message : Text} {reading : Reading}
    (read : readBare code message = .ok reading) :
    reading.message = message ∧ ∃ value, readLiteral code = .ok (some value) := by
  unfold readBare at read
  cases literal : readLiteral code with
  | error overflow => simp [readLiteralOr_error literal, bind, Except.bind] at read
  | ok value =>
    cases value with
    | none => simp [readLiteralOr_ok literal, bind, Except.bind] at read
    | some value =>
      simp only [readLiteralOr_ok literal, bind, Except.bind, pure, Except.pure,
        Except.ok.injEq] at read
      exact ⟨by rw [← read], value, rfl⟩

/-- A bare statement whose code is a number that is not too long is read. -/
theorem exists_readBare_of_literal {code : Text} {value : Int}
    (literal : readLiteral code = .ok (some value)) (message : Text) :
    ∃ reading, readBare code message = .ok reading := by
  simp [readBare, readLiteralOr_ok literal, bind, Except.bind, pure, Except.pure]

/-- A list has a reading exactly if its first argument is there and the numbers in
the first and the third place can be converted. -/
theorem exists_readArguments_iff {text : Text} :
    (∃ reading, readArguments text = .ok reading) ↔
      (splitArguments text).headD [] ≠ [] ∧
        (∃ source, readCode ((splitArguments text).headD []) = .ok source) ∧
        ∃ state, readState (splitArguments text)[2]? = .ok state := by
  unfold readArguments
  by_cases absent : (splitArguments text).headD [] = []
  · simp only [absent, if_true, ne_eq, not_true_eq_false, false_and, iff_false]
    rintro ⟨reading, read⟩
    cases read
  · simp only [absent, if_false, ne_eq, not_false_eq_true, true_and]
    cases readCode ((splitArguments text).headD []) with
    | error reason => simp [bind, Except.bind]
    | ok source =>
      cases readState (splitArguments text)[2]? with
      | error reason => simp [bind, Except.bind]
      | ok state =>
        cases source <;> simp [bind, Except.bind, pure, Except.pure]

/-- A reference is the argument itself: it is returned as it stands, in both places where the
reader comes to one. -/
theorem readCode_reference {token expression : Text}
    (read : readCode token = .ok (.reference expression)) : expression = token := by
  unfold readCode at read
  split at read
  · cases read
    rfl
  · cases literal : readLiteral token with
    | error overflow => simp [readLiteralOr_error literal, bind, Except.bind] at read
    | ok value =>
      cases value with
      | none =>
        simp only [readLiteralOr_ok literal, bind, Except.bind, pure, Except.pure, Except.ok.injEq,
          CodeSource.reference.injEq] at read
        exact read.symm
      | some value => simp [readLiteralOr_ok literal, bind, Except.bind, pure, Except.pure] at read

/-- The message of a list is one of its arguments or the default, in each of the cases in which a
list is read. -/
theorem readArguments_message {text : Text} {reading : Reading}
    (read : readArguments text = .ok reading) :
    reading.message = defaultMessage ∨ reading.message ∈ splitArguments text := by
  unfold readArguments at read
  by_cases absent : (splitArguments text).headD [] = []
  · simp only [absent, if_true] at read
    cases read
  · simp only [absent, if_false] at read
    cases code : readCode ((splitArguments text).headD []) with
    | error reason => simp only [code, bind, Except.bind] at read; cases read
    | ok source =>
      cases state : readState (splitArguments text)[2]? with
      | error reason => simp only [code, state, bind, Except.bind] at read; cases read
      | ok value =>
        simp only [code, state, bind, Except.bind, pure, Except.pure] at read
        cases source with
        | literal number =>
          simp only [Except.ok.injEq] at read
          subst read
          cases fourth : (splitArguments text)[3]? with
          | none => exact .inl rfl
          | some token =>
            by_cases empty : token = []
            · exact .inl (by simp [Option.filter, empty])
            · exact .inr (by simpa [Option.filter, empty] using List.mem_of_getElem? fourth)
        | reference expression =>
          simp only [Except.ok.injEq] at read
          subst read
          rw [readCode_reference code]
          refine .inr ?_
          cases tokens : splitArguments text with
          | nil => simp [tokens] at absent
          | cons first others => simp

end SqlRenewal
