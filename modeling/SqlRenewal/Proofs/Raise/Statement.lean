import SqlRenewal.Proofs.Raise.Occurrence
import SqlRenewal.Proofs.Throw.Written
import SqlRenewal.Proofs.Text.Numerals

/-!
# A statement and what replaces it

Two facts make the replacement of a statement harmless for the rest of the text.
The message that is carried over lacks the legacy keyword, so no new occurrence
comes into the text; and the replacement opens and closes parentheses as the
statement did, so whatever was unclosed around it stays so.
-/
namespace SqlRenewal

/-- A text without the keyword is one that lacks it from its start to its end. -/
theorem hasRaise_eq_false_iff {text : Text} :
    hasRaise text = false ↔ Lacks raiseWord none text [] := by
  rw [hasRaise, Option.isSome_eq_false_iff, Option.isNone_iff_eq_none, firstRaise?_eq_none_iff]

/-- An argument of a list without keywords lacks the keyword too: commas and blanks
separate it from its neighbours. -/
theorem splitArguments_lacks {text token : Text} (lacking : Lacks raiseWord none text [])
    (member : token ∈ splitArguments text) : Lacks raiseWord none token [] := by
  obtain ⟨piece, listed, rfl⟩ := List.mem_map.mp member
  obtain ⟨front, rest, rfl, opened, closed⟩ := argumentPieces_between listed
  obtain ⟨left, right, same, leftBlank, rightBlank⟩ := Text.trimWhile_append isBlank piece
  have comma : endsWord (some ',') = true := by decide
  have blankEnds {c : Char} (blank : isBlank c = true) : endsWord (some c) = true := by
    simp [endsWord, isWordChar_of_isBlank blank]
  have placed : front ++ piece ++ rest = (front ++ left) ++ Text.trim piece ++ (right ++ rest) := by
    calc front ++ piece ++ rest
        = front ++ (left ++ Text.trim piece ++ right) ++ rest := congrArg (front ++ · ++ rest) same
      _ = _ := by simp only [List.append_assoc]
  rw [placed] at lacking
  refine Lacks.middle raiseWord_known lacking ?_ ?_
  · rw [lastOf_append]
    by_cases none : left = []
    · rw [none, lastOf_nil]
      rcases opened with rfl | ⟨more, rfl⟩
      · rfl
      · simpa [lastOf_append] using comma
    · obtain ⟨c, inLeft, last⟩ := lastOf_mem none (lastOf Option.none front)
      rw [last]
      exact blankEnds (leftBlank c inLeft)
  · cases right with
    | nil =>
      rcases closed with rfl | ⟨more, rfl⟩
      · rfl
      · exact comma
    | cons c right => exact blankEnds (rightBlank c (by simp))

/-- The message of a replaced statement lacks the legacy keyword. It is the default, or an
argument of a list without the keyword, or a message that was tested for it. -/
theorem Statement.message_lacks {layout : Layout} {arguments statement : Text} {reading : Reading}
    (stated : Statement layout arguments statement reading) :
    Lacks raiseWord none reading.message [] := by
  cases stated with
  | parenthesized spelled blank balanced read =>
    obtain ⟨lacking, read⟩ := read
    rcases readArguments_message read with default | member
    · rw [default]
      exact firstRaise?_eq_none_iff.mp (by decide)
    · exact splitArguments_lacks (hasRaise_eq_false_iff.mp lacking) member
  | bare spelled some inline blank lacking read =>
    rw [(readBare_eq_ok read).1]
    exact hasRaise_eq_false_iff.mp lacking

/-! ### Parentheses -/

/-- No form of a letter is a parenthesis. -/
theorem letterForms_weight : ∀ c ∈ letterForms, weight c = 0 := by decide

/-- The keyword contains no parentheses. -/
theorem Spells.weightless {word : Text} (spelled : Spells raiseWord word) :
    ∀ c ∈ word, weight c = 0 :=
  fun c member => letterForms_weight c (spelled.letters raiseWord_known c member)

/-- No digit is a parenthesis: were it one, a parenthesis would be a digit, which the two cases
refute. -/
theorem weight_of_isDigit {c : Char} (digit : isDigit c = true) : weight c = 0 := by
  unfold weight
  split
  · rename_i opens
    rw [opens] at digit
    exact absurd digit (by decide)
  · split
    · rename_i closes
      rw [closes] at digit
      exact absurd digit (by decide)
    · rfl

/-- Digits are all that a plain numeral has. The induction goes along the text: every character
has been given a value. -/
theorem plainDigits?_isDigit {text : Text} {digits : List Nat}
    (plain : Numeral.plainDigits? text = some digits) : ∀ c ∈ text, isDigit c = true := by
  induction text generalizing digits with
  | nil => simp
  | cons c rest inductionHypothesis =>
    have first : isDigit c = true := by
      unfold Numeral.plainDigits? at plain
      cases value : digitValue? c with
      | some n => simp [isDigit, value]
      | none => cases rest <;> simp [value] at plain
    intro d member
    rcases List.mem_cons.mp member with rfl | later
    · exact first
    · cases rest with
      | nil => simp at later
      | cons e rest =>
        simp only [Numeral.plainDigits?, bind, Option.bind_eq_some_iff] at plain
        obtain ⟨_, _, others, plain, _⟩ := plain
        exact inductionHypothesis plain d later

/-- A character of a numeral is its sign, or stands behind it. The cases are those of the cut: a
minus, a plus, or no sign at all. -/
theorem Numeral.mem_splitSign {text : Text} {c : Char} (member : c ∈ text) :
    c = '-' ∨ c = '+' ∨ c ∈ (Numeral.splitSign text).2 := by
  fun_cases Numeral.splitSign text with
  | case1 rest =>
    rcases List.mem_cons.mp member with rfl | later
    · exact .inl rfl
    · exact .inr (.inr later)
  | case2 rest =>
    rcases List.mem_cons.mp member with rfl | later
    · exact .inr (.inl rfl)
    · exact .inr (.inr later)
  | case3 => exact .inr (.inr member)

/-- A character that an integer literal may have. -/
def isNumeric (c : Char) : Bool :=
  isBlank c || c == '-' || c == '+' || isDigit c

/-- A numeral has a sign, digits and blanks only: the blanks are trimmed away, and what is read
between them is a sign and plain digits. -/
theorem Numeral.ofText?_isNumeric {text : Text} {numeral : Numeral}
    (found : Numeral.ofText? (Text.trim text) = some numeral) : ∀ c ∈ text, isNumeric c = true := by
  obtain ⟨left, right, same, leftBlank, rightBlank⟩ := Text.trimWhile_append isBlank text
  have inside : ∀ c ∈ Text.trim text, isNumeric c = true := by
    obtain ⟨digits, plain, _⟩ := Option.map_eq_some_iff.mp found
    intro c member
    rcases Numeral.mem_splitSign member with rfl | rfl | digit
    · rfl
    · rfl
    · simp [isNumeric, plainDigits?_isDigit plain c digit]
  intro c member
  rw [same] at member
  rcases List.mem_append.mp member with member | inRight
  · rcases List.mem_append.mp member with inLeft | member
    · simp [isNumeric, leftBlank c inLeft]
    · exact inside c member
  · simp [isNumeric, rightBlank c inRight]

/-- An integer literal has a sign, digits and blanks only. -/
theorem readLiteral_isNumeric {text : Text} {value : Int}
    (literal : readLiteral text = .ok (some value)) : ∀ c ∈ text, isNumeric c = true := by
  unfold readLiteral at literal
  cases found : Numeral.ofText? (Text.trim text) with
  | none => simp [found] at literal
  | some numeral => exact Numeral.ofText?_isNumeric found

/-- Any other character makes a text something else than a literal, because all characters of a
numeral are numeric. -/
theorem readLiteral_of_not_isNumeric {text : Text} {c : Char} (member : c ∈ text)
    (other : isNumeric c = false) : readLiteral text = .ok none := by
  unfold readLiteral
  cases found : Numeral.ofText? (Text.trim text) with
  | none => rfl
  | some numeral =>
    rw [Numeral.ofText?_isNumeric found c member] at other
    cases other

/-- No character of a numeral is a parenthesis. It is a blank, the sign, an underscore or a
digit. -/
theorem weight_of_isNumeric {c : Char} (numeric : isNumeric c = true) : weight c = 0 := by
  simp only [isNumeric, Bool.or_eq_true, beq_iff_eq] at numeric
  rcases numeric with ((blank | rfl) | rfl) | digit
  · exact weight_of_isBlank blank
  · rfl
  · rfl
  · exact weight_of_isDigit digit

/-- A replaced statement brings the depth where its replacement brings it, and the
replacement stays where the statement stayed. -/
theorem Statement.parentheses {layout : Layout} {arguments statement : Text} {reading : Reading}
    (stated : Statement layout arguments statement reading) :
    balance reading.render = balance statement ∧
      ∀ depth, 0 ≤ depth → StaysAbove depth statement → StaysAbove depth reading.render := by
  rw [reading.balance_render]
  cases stated with
  | @parenthesized word blanks arguments reading spelled blank balanced read =>
    have message : Balanced reading.message := by
      rcases readArguments_message read.2 with default | member
      · rw [default]
        exact balanced_of_weightless (by decide)
      · exact splitArguments_balanced balanced member
    have wordless : balance word = 0 := balance_of_weightless spelled.weightless
    have blankless : balance blanks = 0 :=
      balance_of_weightless fun c member => weight_of_isBlank (blank c member)
    refine ⟨?_, fun depth start _ => Reading.staysAbove_render start (message.1.mono start)⟩
    simp [message.2, wordless, blankless, balanced.2, weight]
  | @bare word margin code gap message reading spelled some inline blank lacking read =>
    obtain ⟨same, value, literal⟩ := readBare_eq_ok read
    have front : Balanced (word ++ margin ++ (code ++ gap)) := by
      apply balanced_of_weightless
      intro c member
      simp only [List.mem_append] at member
      rcases member with (inWord | inMargin) | inCode | inGap
      · exact spelled.weightless c inWord
      · exact weight_of_isBlank (isBlank_of_isInlineBlank (inline c inMargin))
      · exact weight_of_isNumeric (readLiteral_isNumeric literal c inCode)
      · exact weight_of_isBlank (blank c inGap)
    have placed : word ++ margin ++ (code ++ gap ++ message) =
        word ++ margin ++ (code ++ gap) ++ message := by
      simp only [List.append_assoc]
    rw [placed, same]
    refine ⟨by rw [balance_append, front.2, Int.zero_add], ?_⟩
    intro depth start above
    rw [front.staysAbove_append_iff start] at above
    exact Reading.staysAbove_render start (by rwa [same])

end SqlRenewal
