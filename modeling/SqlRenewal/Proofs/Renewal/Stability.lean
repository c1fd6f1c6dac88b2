import SqlRenewal.Proofs.Renewal.Firm
import SqlRenewal.Proofs.Renewal.Quiet
import SqlRenewal.Proofs.Substitution.Clear

/-!
# Quiet texts stay quiet

A rule that loses neither a line break nor a keyword makes no occurrence readable
that was not. Each of the four ways in which an occurrence stays is carried over
to the new text: nothing readable begins there that did not begin before, an
unclosed parenthesis stays unclosed, the arguments of a list go on being the
arguments of a list, and a line stays a line. A number among the arguments holds
no swap, so a list or a line that can be read afterwards could be read before.
-/
namespace SqlRenewal

/-! ### Arguments -/

/-- The second piece is the first one, or the first one is no number. -/
def Twin (piece piece' : Text) : Prop :=
  piece = piece' ∨ ∃ c ∈ piece, isNumeric c = false

/-- Twins stay so behind the same character. -/
theorem Twin.cons {piece piece' : Text} (twin : Twin piece piece') (c : Char) :
    Twin (c :: piece) (c :: piece') := by
  rcases twin with rfl | ⟨d, member, other⟩
  · exact .inl rfl
  · exact .inr ⟨d, List.mem_cons_of_mem _ member, other⟩

/-- What a swap takes is no number: it holds a character that no numeral has. -/
theorem Swap.taken_not_isNumeric {joins : Bool} {before : Option Char} {taken put : Text}
    (swap : Swap joins before taken put) : ∃ c ∈ taken, isNumeric c = false := by
  have none : ∀ c ∈ openingForms, isNumeric c = false := by decide
  obtain ⟨c, more, rfl, opening⟩ := swap.taken_head
  exact ⟨c, by simp, none c opening⟩

/-- Swaps leave the cutting of a list as it is: they neither take nor put commas, and are
balanced, so the depth at every comma is the same. The induction goes along the alignment. -/
theorem Aligned.cutArguments_twin {kept : Option Char → Option Char → Text → Text → Prop}
    {swapped : Option Char → Text → Text → Prop} {before before' : Option Char} {old new : Text}
    (aligned : Aligned kept swapped before before' old new)
    (swaps : ∀ {b taken put}, swapped b taken put → Swap true b taken put) (depth : Nat) :
    Twin (cutArguments depth old).1 (cutArguments depth new).1 ∧
      ∀ i : Nat, Option.Rel Twin (cutArguments depth old).2[i]? (cutArguments depth new).2[i]? := by
  induction aligned generalizing depth with
  | nil =>
    refine ⟨.inl rfl, ?_⟩
    intro i
    simp [cutArguments]
  | @keep before before' c old new faithful later inductionHypothesis =>
    obtain ⟨first, others⟩ := inductionHypothesis (depthAfter depth c)
    simp only [cutArguments]
    split
    · refine ⟨.inl rfl, ?_⟩
      intro i
      cases i with
      | zero => exact .some first
      | succ i => simpa using others i
    · exact ⟨first.cons c, others⟩
  | @swap before before' taken put old new swap later inductionHypothesis =>
    obtain ⟨noneTaken, nonePut⟩ := (swaps swap).no_comma
    have start : (0 : Int) ≤ depth := Int.natCast_nonneg depth
    have takenBalanced := (swaps swap).taken_balanced
    have putBalanced := (swaps swap).put_balanced
    have takenLevel : (depth : Int) = depth + balance taken := by rw [takenBalanced.2, Int.add_zero]
    have putLevel : (depth : Int) = depth + balance put := by rw [putBalanced.2, Int.add_zero]
    rw [cutArguments_append old noneTaken (takenBalanced.1.mono start) takenLevel,
      cutArguments_append new nonePut (putBalanced.1.mono start) putLevel]
    refine ⟨.inr ?_, (inductionHypothesis depth).2⟩
    obtain ⟨c, member, other⟩ := (swaps swap).taken_not_isNumeric
    exact ⟨c, List.mem_append_left _ member, other⟩

/-- A character that is no blank is still there after blanks at the ends are trimmed. -/
theorem Text.mem_trim {text : Text} {c : Char} (member : c ∈ text) (solid : isBlank c = false) :
    c ∈ Text.trim text := by
  obtain ⟨left, right, same, leftBlank, rightBlank⟩ := Text.trimWhile_append isBlank text
  rw [same] at member
  have outside {d : Char} (blank : isBlank d = true) (equal : c = d) : False := by
    rw [← equal, solid] at blank
    cases blank
  rcases List.mem_append.mp member with member | inRight
  · rcases List.mem_append.mp member with inLeft | inside
    · exact (outside (leftBlank c inLeft) rfl).elim
    · exact inside
  · exact (outside (rightBlank c inRight) rfl).elim

/-- A token that is no number is read, whatever it is. Only the digits of a literal can be too
many. -/
theorem readCode_of_not_isNumeric {token : Text} {c : Char} (member : c ∈ token)
    (other : isNumeric c = false) : ∃ source, readCode token = .ok source := by
  have literal := readLiteral_of_not_isNumeric member other
  unfold readCode
  split
  · exact ⟨_, rfl⟩
  · exact ⟨.reference token, by simp [readLiteralOr_ok literal, bind, Except.bind, pure,
      Except.pure]⟩

/-- A third argument that is no number has no overflow, so it has a state. -/
theorem readState_of_not_isNumeric {token : Text} {c : Char} (member : c ∈ token)
    (other : isNumeric c = false) : ∃ state, readState (some token) = .ok state := by
  have literal := readLiteral_of_not_isNumeric member other
  exact ⟨defaultState, by simp [readState, readLiteralOr_ok literal, bind, Except.bind, pure,
    Except.pure]⟩

/-- A character that no number has is no blank, since blanks may stand around a number. -/
theorem isBlank_of_not_isNumeric {c : Char} (other : isNumeric c = false) : isBlank c = false := by
  cases blank : isBlank c with
  | false => rfl
  | true => simp [isNumeric, blank] at other

/-- A list that can be read after a rule could be read before. A swap takes something that is no
number, so no code and no state was put together by it. -/
theorem Aligned.readArguments {kept : Option Char → Option Char → Text → Text → Prop}
    {swapped : Option Char → Text → Text → Prop} {before before' : Option Char} {old new : Text}
    (aligned : Aligned kept swapped before before' old new)
    (swaps : ∀ {b taken put}, swapped b taken put → Swap true b taken put)
    (read : ∃ reading, readArguments new = .ok reading) :
    ∃ reading, readArguments old = .ok reading := by
  obtain ⟨first, others⟩ := aligned.cutArguments_twin swaps 0
  obtain ⟨present, ⟨source, code⟩, ⟨state, third⟩⟩ := exists_readArguments_iff.mp read
  have head (text : Text) : (splitArguments text).headD [] = Text.trim (cutArguments 0 text).1 := rfl
  have place (text : Text) : (splitArguments text)[2]? = ((cutArguments 0 text).2[1]?).map Text.trim := by
    simp [splitArguments, argumentPieces]
  rw [head] at present code
  rw [place] at third
  refine exists_readArguments_iff.mpr ⟨?_, ?_, ?_⟩
  · rw [head]
    rcases first with same | ⟨c, member, other⟩
    · rwa [same]
    · exact List.ne_nil_of_mem (Text.mem_trim member (isBlank_of_not_isNumeric other))
  · rw [head]
    rcases first with same | ⟨c, member, other⟩
    · exact ⟨source, by rwa [same]⟩
    · exact readCode_of_not_isNumeric (Text.mem_trim member (isBlank_of_not_isNumeric other)) other
  · rw [place]
    have twins := others 1
    cases piece : (cutArguments 0 old).2[1]? with
    | none => exact ⟨defaultState, rfl⟩
    | some piece =>
      cases piece' : (cutArguments 0 new).2[1]? with
      | none => simp_all
      | some piece' =>
        simp only [*] at twins third
        cases twins with
        | some twin =>
          rcases twin with same | ⟨c, member, other⟩
          · exact ⟨state, by rw [same]; exact third⟩
          · exact readState_of_not_isNumeric
              (Text.mem_trim member (isBlank_of_not_isNumeric other)) other

/-- Arguments that could not be read before cannot be read afterwards. A reading of the new text
would be carried back, and the number of keywords in it is the same. -/
theorem Firm.unreadArguments {before : Option Char} {old new : Text}
    (firm : Firm before before old new) (opened : endsWord before = true)
    (unread : ∀ reading, ¬ArgumentsRead old reading) : ∀ reading, ¬ArgumentsRead new reading := by
  rintro reading ⟨lacking, read⟩
  obtain ⟨reading', read'⟩ := firm.readArguments FlatSwap.swap ⟨reading, read⟩
  refine unread reading' ⟨?_, read'⟩
  have sameClass : endsWord none = endsWord before := opened.symm
  rw [hasRaise_eq_false_iff, lacks_congr_before sameClass, ← countRaises_eq_zero_iff] at lacking ⊢
  rw [← firm.countRaises_eq]
  exact lacking

/-! ### Lines -/

/-- What is behind a gap is a message and a trailer, and the trailer counts for
nothing. -/
theorem message_split {before : Option Char} (text : Text) (opened : endsWord before = true) :
    (∃ trailer, text = withoutTerminator (Text.trimRight text) ++ trailer ∧
      ∀ c ∈ trailer, isTrailer c = true) ∧
      (hasRaise (withoutTerminator (Text.trimRight text)) = false ↔ countRaises before text = 0) := by
  obtain ⟨margin, same, blank⟩ := Text.trimRightWhile_append isBlank text
  obtain ⟨ending, message, trailing⟩ := withoutTerminator_append (Text.trimRight text)
  have split : text = withoutTerminator (Text.trimRight text) ++ (ending ++ margin) := by
    rw [← List.append_assoc, ← message]
    exact same
  have trailer : ∀ c ∈ ending ++ margin, isTrailer c = true := by
    intro c member
    rcases List.mem_append.mp member with inEnding | inMargin
    · exact trailing c inEnding
    · simp [isTrailer, blank c inMargin]
  refine ⟨⟨ending ++ margin, split, trailer⟩, ?_⟩
  generalize withoutTerminator (Text.trimRight text) = body at *
  generalize ending ++ margin = tail at *
  have seam : Seam before body tail := by
    refine .inr ?_
    cases tail with
    | nil => rfl
    | cons c tail => exact (trailer_outside_words (trailer c (by simp))).1
  have nothing : countRaises (lastOf before body) tail = 0 :=
    countRaises_eq_zero_iff.mpr (lacks_of_no_opening
      (fun c member => (trailer_outside_words (trailer c member)).2) _ _)
  have sameClass : endsWord none = endsWord before := opened.symm
  rw [split, countRaises_append seam, nothing, Nat.add_zero, hasRaise_eq_false_iff,
    lacks_congr_before sameClass, ← countRaises_eq_zero_iff]

/-- A firm alignment changes nothing, or the old text has a letter or an operator: that with which
the first swap begins. The induction goes along the alignment. -/
theorem Firm.eq_or_mem {before before' : Option Char} {old new : Text}
    (firm : Firm before before' old new) : old = new ∨ ∃ c ∈ old, c ∈ openingForms := by
  induction firm with
  | nil => exact .inl rfl
  | keep same later inductionHypothesis =>
    rcases inductionHypothesis with rfl | ⟨c, member, opening⟩
    · exact .inl rfl
    · exact .inr ⟨c, List.mem_cons_of_mem _ member, opening⟩
  | swap flat later inductionHypothesis =>
    obtain ⟨c, more, rfl, opening⟩ := flat.swap.taken_head
    exact .inr ⟨c, by simp, opening⟩

/-- Where a renewed text begins with something else than a blank, the old one did too. -/
theorem Firm.solid_head {before before' : Option Char} {old new : Text} {c : Char}
    (firm : Firm before before' old (c :: new)) (solid : isBlank c = false) :
    ∃ d more, old = d :: more ∧ isBlank d = false := by
  generalize whole : c :: new = text at firm
  cases firm with
  | nil => cases whole
  | keep same later =>
    obtain ⟨rfl, _⟩ := List.cons.inj whole
    exact ⟨c, _, rfl, solid⟩
  | swap flat later =>
    obtain ⟨d, more, rfl, opening⟩ := flat.swap.taken_head
    exact ⟨d, _, rfl, openingForms_isBlank d opening⟩

/-- A line that could not be read before cannot be read afterwards: a code and a gap would have
been kept, and with them the parts of the old line. -/
theorem Firm.unreadLine {before : Option Char} {line line' : Text}
    (firm : Firm before before line line') (unbroken : ∀ c ∈ line, isLineBreak c = false)
    (unbroken' : ∀ c ∈ line', isLineBreak c = false)
    (unread : ∀ reading, ¬LineReads line reading) : ∀ reading, ¬LineReads line' reading := by
  rintro reading ⟨gapSome, messageSome, lacking, read⟩
  obtain ⟨code, gap, c, rest', rfl, solid, some, blank, opening⟩ :=
    BareLine.exists_parts unbroken' gapSome messageSome
  rw [BareLine.ofText_parts solid some blank unbroken' opening] at messageSome lacking read
  obtain ⟨_, value, literal⟩ := readBare_eq_ok read
  -- The code is a number and the gap is blank, so both were kept.
  have noLetters : ∀ d ∈ code ++ gap, d ∉ letterForms := by
    intro d member letter
    rcases List.mem_append.mp member with inCode | inGap
    · have numeric := readLiteral_isNumeric literal d inCode
      have none : ∀ c ∈ letterForms, isNumeric c = false := by decide
      rw [none d letter] at numeric
      cases numeric
    · exact not_letter_of_isBlank (blank d inGap) letter
  rw [← List.append_assoc] at firm
  obtain ⟨rest, rfl, aligned⟩ := firm.kept_of_new FlatSwap.swap noLetters
  have later : Firm (lastOf before (code ++ gap)) (lastOf before (code ++ gap)) rest (c :: rest') :=
    aligned
  have opened : endsWord (lastOf before (code ++ gap)) = true := by
    rw [lastOf_append]
    exact endsWord_lastOf_blanks some blank _
  obtain ⟨d, more, rfl, opening'⟩ := later.solid_head opening
  rw [List.append_assoc] at unbroken unread
  have parts := BareLine.ofText_parts solid some blank unbroken opening'
  obtain ⟨⟨trailer, split, trailing⟩, lacks⟩ := message_split (d :: more) opened
  obtain ⟨_, lacks'⟩ := message_split (c :: rest') opened
  have message : withoutTerminator (Text.trimRight (d :: more)) ≠ [] := by
    intro empty
    rcases later.eq_or_mem with same | ⟨e, member, letter⟩
    · rw [same] at empty
      exact messageSome empty
    · have none : ∀ c ∈ openingForms, isTrailer c = false := by decide
      rw [split, empty, List.nil_append] at member
      have trails := trailing e member
      rw [none e letter] at trails
      cases trails
  obtain ⟨reading', read'⟩ := exists_readBare_of_literal literal
    (withoutTerminator (Text.trimRight (d :: more)))
  refine unread reading' ⟨?_, ?_, ?_, ?_⟩
  · rw [parts]
    exact some
  · rw [parts]
    exact message
  · rw [parts]
    rw [lacks', later.countRaises_eq] at lacking
    exact lacks.mpr lacking
  · rw [parts]
    exact read'

/-! ### Occurrences -/

/-- What begins in a text and does not go over the next character lies in front of it. -/
theorem prefix_of_stop {taken front rest : Text} (begins : taken <+: front ++ rest)
    (stops : ∀ c more, taken = front ++ c :: more → rest.head? = some c → False) :
    taken <+: front := by
  rcases List.prefix_or_prefix_of_prefix begins (List.prefix_append front rest) with
    short | ⟨more, rfl⟩
  · exact short
  · cases more with
    | nil => simp
    | cons c more =>
      obtain ⟨behind, same⟩ := begins
      rw [List.append_assoc] at same
      have rest := List.append_cancel_left same
      exact (stops c more rfl (by rw [← rest]; rfl)).elim

/-- The closing parenthesis of a list is kept, and what it encloses is renewed on its own: a swap
over the parenthesis would close more than it opens. -/
theorem Firm.cut_arguments {before : Option Char} {arguments rest new : Text}
    (firm : Firm before before (arguments ++ ')' :: rest) new) (balanced : Balanced arguments) :
    ∃ arguments' rest', new = arguments' ++ ')' :: rest' ∧ Balanced arguments' ∧
      Firm before before arguments arguments' ∧ Firm (some ')') (some ')') rest rest' := by
  have barrier : Barrier (')' :: rest) := by
    intro c first
    cases first
    decide
  -- A swap that goes over the parenthesis would close more than it opens.
  have whole : ∀ early late, arguments = early ++ late → ∀ {b taken put}, FlatSwap b taken put →
      taken <+: late ++ ')' :: rest → taken <+: late := by
    intro early late split b taken put flat begins
    refine prefix_of_stop begins ?_
    intro c more same first
    cases first
    have early : 0 ≤ 0 + balance early := balanced.1 early ⟨late, split.symm⟩
    have total := balanced.2
    rw [split, balance_append] at total
    have inside : 0 ≤ 0 + balance (late ++ [')']) :=
      flat.swap.taken_balanced.1 (late ++ [')']) ⟨more, by rw [same]; simp⟩
    have closes : weight ')' = -1 := rfl
    rw [balance_append, balance_cons, balance_nil, closes] at inside
    omega
  obtain ⟨arguments', rest', rfl, first, second⟩ := firm.cut barrier whole
  have closing : Firm (lastOf before arguments) (lastOf before arguments') ([')'] ++ rest) rest' := second
  obtain ⟨rest'', rfl, later⟩ := closing.kept_of_old FlatSwap.swap (by decide)
  refine ⟨arguments', rest'', rfl, ⟨first.staysAbove FlatSwap.swap balanced.1, ?_⟩, first,
    by simpa using later⟩
  rw [first.balance_eq FlatSwap.swap, balanced.2]

/-- The end of a line is kept, and the line is renewed on its own, because no swap of a firm
alignment takes a line break. -/
theorem Firm.cut_line {before : Option Char} {line rest new : Text}
    (firm : Firm before before (line ++ rest) new) (unbroken : ∀ c ∈ line, isLineBreak c = false)
    (ends : AtLineEnd rest) :
    ∃ line' rest', new = line' ++ rest' ∧ (∀ c ∈ line', isLineBreak c = false) ∧ AtLineEnd rest' ∧
      Firm before before line line' ∧ Firm (lastOf before line) (lastOf before line') rest rest' := by
  have breaks {c : Char} (broken : isLineBreak c = true) :
      c ∉ openingForms ∧ endsWord (some c) = true := by
    simp only [isLineBreak, Bool.or_eq_true, beq_iff_eq] at broken
    rcases broken with rfl | rfl
    · decide
    · decide
  have barrier : Barrier rest := by
    intro c first
    rcases ends with rfl | ⟨d, more, rfl, broken⟩
    · cases first
    · cases first
      exact breaks broken
  have whole : ∀ early late, line = early ++ late → ∀ {b taken put}, FlatSwap b taken put →
      taken <+: late ++ rest → taken <+: late := by
    intro early late split b taken put flat begins
    refine prefix_of_stop begins ?_
    intro c more same first
    rcases ends with rfl | ⟨d, others, rfl, broken⟩
    · cases first
    · cases first
      rw [flat.2 c (by rw [same]; simp)] at broken
      cases broken
  obtain ⟨line', rest', rfl, first, second⟩ := firm.cut barrier whole
  have never := putForms_isLineBreak
  refine ⟨line', rest', rfl, ?_, ?_, first, second⟩
  · have none : line.countP isLineBreak = 0 := by
      apply List.countP_eq_zero.mpr
      intro c member
      simp [unbroken c member]
    have fewer := first.countP_le FlatSwap.swap never
    intro c member
    have unbroken' := List.countP_eq_zero.mp (show line'.countP isLineBreak = 0 by omega) c member
    simpa using unbroken'
  · rcases ends with rfl | ⟨c, more, rfl, broken⟩
    · rcases second.akin FlatSwap.swap with same | ⟨front, c, _, left, _, same, _⟩
      · exact .inl same.symm
      · simp at same
    · have single : Firm (lastOf before line) (lastOf before line') ([c] ++ more) rest' := second
      obtain ⟨rest'', rfl, _⟩ := single.kept_of_old FlatSwap.swap (by simpa using (breaks broken).1)
      exact .inr ⟨c, rest'', rfl, broken⟩

/-- An occurrence that stays goes on staying. Its keyword is kept, and what follows it has the
same shape: the list is still closed there or nowhere, and what could not be read still cannot. -/
theorem Firm.leaves {before before' : Option Char} {kept rest new : Text}
    (firm : Firm before before' (kept ++ rest) new) (leaves : Leaves before kept rest) :
    ∃ kept' rest', new = kept' ++ rest' ∧ Leaves before' kept' rest' ∧
      Firm (lastOf before kept) (lastOf before' kept') rest rest' := by
  have mark {blanks : Text} (blank : ∀ c ∈ blanks, isBlank c = true) :
      ∀ c ∈ blanks ++ ['('], c ∉ openingForms := by
    intro c member opening
    rcases List.mem_append.mp member with inBlanks | opens
    · have isBlank := blank c inBlanks
      rw [openingForms_isBlank c opening] at isBlank
      cases isBlank
    · rw [List.mem_singleton.mp opens] at opening
      exact absurd opening (by decide)
  cases leaves with
  | unrecognized occurs unread =>
    obtain ⟨front', after', rfl, occurs', later⟩ := firm.occurs occurs
    exact ⟨_, after', rfl, .unrecognized occurs' (unread.akin (later.akin FlatSwap.swap)), later⟩
  | @unclosed front word blanks _ occurs blank open' =>
    have placed : front ++ word ++ blanks ++ ['('] ++ rest =
        front ++ word ++ (blanks ++ '(' :: rest) := by simp
    rw [placed] at firm
    obtain ⟨front', after', rfl, occurs', later⟩ := firm.occurs occurs
    rw [← List.singleton_append, ← List.append_assoc] at later
    obtain ⟨inside', rfl, inner⟩ := later.kept_of_old FlatSwap.swap (mark blank)
    refine ⟨front' ++ word ++ blanks ++ ['('], inside', by simp, ?_, ?_⟩
    · exact .unclosed (by simpa using occurs') blank (inner.staysAbove FlatSwap.swap open')
    · simpa [lastOf_append] using inner
  | @arguments front word blanks arguments _ occurs blank balanced unread =>
    have placed : front ++ word ++ blanks ++ '(' :: arguments ++ [')'] ++ rest =
        front ++ word ++ (blanks ++ '(' :: (arguments ++ ')' :: rest)) := by simp
    rw [placed] at firm
    obtain ⟨front', after', rfl, occurs', later⟩ := firm.occurs occurs
    rw [← List.singleton_append, ← List.append_assoc] at later
    obtain ⟨inside', rfl, aligned⟩ := later.kept_of_old FlatSwap.swap (mark blank)
    have inner : Firm (some '(') (some '(') (arguments ++ ')' :: rest) inside' := by
      simpa [lastOf_append] using aligned
    obtain ⟨arguments', rest', rfl, balanced', read, behind⟩ := inner.cut_arguments balanced
    refine ⟨front' ++ word ++ blanks ++ '(' :: arguments' ++ [')'], rest', by simp, ?_, ?_⟩
    · exact .arguments (by simpa using occurs') blank balanced'
        (read.unreadArguments (by decide) unread)
    · simpa [lastOf_append] using behind
  | @line front word margin line _ occurs some inline digit unbroken ends unread =>
    have placed : front ++ word ++ margin ++ line ++ rest =
        front ++ word ++ (margin ++ (line ++ rest)) := by simp
    rw [placed] at firm
    obtain ⟨front', after', rfl, occurs', later⟩ := firm.occurs occurs
    obtain ⟨region', rfl, aligned⟩ := later.kept_of_old FlatSwap.swap fun c member =>
      mark (fun d inMargin => isBlank_of_isInlineBlank (inline d inMargin)) c
        (List.mem_append_left _ member)
    have same : lastOf (lastOf before (front ++ word)) margin =
        lastOf (lastOf before' (front' ++ word)) margin := lastOf_of_ne_nil some _ _
    rw [same] at aligned
    have inner : Firm (lastOf (lastOf before' (front' ++ word)) margin)
        (lastOf (lastOf before' (front' ++ word)) margin) (line ++ rest) region' := aligned
    obtain ⟨line', rest', rfl, unbroken', ends', first, second⟩ := inner.cut_line unbroken ends
    refine ⟨front' ++ word ++ margin ++ line', rest', by simp, ?_, ?_⟩
    · refine .line (by simpa using occurs') some inline ?_ unbroken' ends'
        (first.unreadLine unbroken unbroken' unread)
      cases line with
      | nil => simp at digit
      | cons d line =>
        have isDigit : isDigit d = true := by simpa using digit
        have none : ∀ c ∈ openingForms, SqlRenewal.isDigit c = false := by decide
        have unopened : d ∉ openingForms := by
          intro opening
          rw [none d opening] at isDigit
          cases isDigit
        have single : Firm _ _ ([d] ++ line) line' := first
        obtain ⟨more, rfl, _⟩ := single.kept_of_old FlatSwap.swap (by simpa using unopened)
        exact digit
    · rw [lastOf_append, lastOf_append _ (front' ++ word ++ margin), lastOf_append _ (front ++ word),
        lastOf_append _ (front' ++ word), same]
      exact second

/-- A firm application keeps a quiet text quiet. It brings no keyword into a part without one, and
leaves every occurrence one that stays; the induction is on the quiet text. -/
theorem Firm.quiet {before before' : Option Char} {old new : Text}
    (firm : Firm before before' old new) (quiet : Quiet before old) : Quiet before' new := by
  induction quiet generalizing before' new with
  | absent lacking =>
    refine .absent (countRaises_eq_zero_iff.mp ?_)
    rw [firm.countRaises_eq]
    exact countRaises_eq_zero_iff.mpr lacking
  | left leaves later inductionHypothesis =>
    obtain ⟨kept', rest', rfl, leaves', behind⟩ := firm.leaves leaves
    exact .left leaves' (inductionHypothesis behind)

end SqlRenewal
