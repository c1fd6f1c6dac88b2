import SqlRenewal.Raise.Locate
import SqlRenewal.Proofs.Throw.Tokens

/-!
# The line of a bare statement

A bare statement is read from the rest of its line. Code, gap and message are the
line up to a trailer of blanks and at most one terminator, and what follows the
line plays no part.
-/
namespace SqlRenewal

/-- A blank or a terminator. -/
def isTrailer (c : Char) : Bool :=
  isBlank c || c == ';'

/-- What stands in a trailer belongs to no word. -/
theorem trailer_outside_words {c : Char} (trails : isTrailer c = true) :
    endsWord (some c) = true ∧ writes 'R' c = false := by
  simp only [isTrailer, Bool.or_eq_true, beq_iff_eq] at trails
  rcases trails with blank | rfl
  · exact ⟨by simp [endsWord, isWordChar_of_isBlank blank], writes_of_isBlank (by decide) blank⟩
  · decide

/-- The text is over, or it goes on with a line break. -/
def AtLineEnd (text : Text) : Prop :=
  text = [] ∨ ∃ c rest, text = c :: rest ∧ isLineBreak c = true

/-- No word goes on over the end of a line: behind it is nothing or a line break, and line breaks
are no word characters. -/
theorem AtLineEnd.endsWord_head {text : Text} (ends : AtLineEnd text) :
    endsWord text.head? = true := by
  rcases ends with rfl | ⟨c, rest, rfl, broken⟩
  · rfl
  · simp only [isLineBreak, Bool.or_eq_true, beq_iff_eq] at broken
    rcases broken with rfl | rfl
    · exact (show endsWord (some '\r') = true by decide)
    · exact (show endsWord (some '\n') = true by decide)

section Stops

variable {keep : Char → Bool} {first second : Text}

/-- A scan over kept characters takes exactly these, if the next character is not kept. -/
theorem takeWhile_append_stop (all : ∀ c ∈ first, keep c = true)
    (stops : ∀ c ∈ second.head?, keep c = false) : (first ++ second).takeWhile keep = first := by
  have none : second.takeWhile keep = [] := by
    cases second with
    | nil => rfl
    | cons c second => simp [stops c (by simp)]
  rw [List.takeWhile_append_of_pos all, none, List.append_nil]

/-- What such a scan leaves begins with the character that stopped it. -/
theorem dropWhile_append_stop (all : ∀ c ∈ first, keep c = true)
    (stops : ∀ c ∈ second.head?, keep c = false) : (first ++ second).dropWhile keep = second := by
  rw [List.dropWhile_append_of_pos all]
  cases second with
  | nil => rfl
  | cons c second => simp [stops c (by simp)]

end Stops

/-- A line without breaks is the whole of itself. -/
theorem takeWhile_unbroken {line : Text} (unbroken : ∀ c ∈ line, isLineBreak c = false) :
    line.takeWhile (fun c => !isLineBreak c) = line := by
  have kept : ∀ c ∈ line, (!isLineBreak c) = true := by simpa using unbroken
  simpa using takeWhile_append_stop kept (by simp : ∀ c ∈ ([] : Text).head?, (!isLineBreak c) = false)

/-- A statement is read from its line alone: the line has no break in it, and the text behind it
begins with one or is empty. -/
theorem BareLine.ofText_append {line rest : Text} (unbroken : ∀ c ∈ line, isLineBreak c = false)
    (ends : AtLineEnd rest) : ofText (line ++ rest) = ofText line := by
  have whole : (line ++ rest).takeWhile (fun c => !isLineBreak c) = line := by
    apply takeWhile_append_stop
    · intro c member
      simp [unbroken c member]
    · intro c first
      rcases ends with rfl | ⟨d, more, rfl, broken⟩
      · simp at first
      · cases first
        simp [broken]
  simp only [ofText, whole, takeWhile_unbroken unbroken]

/-- Trimming the end of a text does not reach what is in front of a part of it that
is not blank throughout. -/
theorem Text.trimRight_append {first second : Text} (some : Text.trimRight second ≠ []) :
    Text.trimRight (first ++ second) = first ++ Text.trimRight second := by
  have kept : second.reverse.dropWhile isBlank ≠ [] := by
    intro none
    exact some (by simp [Text.trimRight, Text.trimRightWhile, none])
  have stops : (second.reverse.dropWhile isBlank).isEmpty = false := by simpa using kept
  rw [Text.trimRight, Text.trimRightWhile, List.reverse_append, List.dropWhile_append, stops]
  simp [Text.trimRight, Text.trimRightWhile]

/-- A text that begins with something else than a blank still does so when trimmed. If nothing
were left, the whole text would be margin, and its first character a blank. -/
theorem Text.trimRight_cons {c : Char} (solid : isBlank c = false) (text : Text) :
    ∃ more, Text.trimRight (c :: text) = c :: more := by
  obtain ⟨margin, same, blank⟩ := Text.trimRightWhile_append isBlank (c :: text)
  change c :: text = Text.trimRight (c :: text) ++ margin at same
  cases trimmed : Text.trimRight (c :: text) with
  | nil =>
    rw [trimmed, List.nil_append] at same
    have isBlank := blank c (by rw [← same]; simp)
    rw [solid] at isBlank
    cases isBlank
  | cons d more =>
    rw [trimmed, List.cons_append] at same
    obtain ⟨rfl, _⟩ := List.cons.inj same
    exact ⟨more, rfl⟩

/-- A line with a code, a gap and something behind it is read as these parts: the code ends at the
first character that is no digit, and the gap at the first that is no blank. -/
theorem BareLine.ofText_parts {code gap rest : Text} {c : Char}
    (solid : ∀ d ∈ code, isBlank d = false) (some : gap ≠ []) (blank : ∀ d ∈ gap, isBlank d = true)
    (unbroken : ∀ d ∈ code ++ (gap ++ c :: rest), isLineBreak d = false)
    (opening : isBlank c = false) :
    BareLine.ofText (code ++ (gap ++ c :: rest)) =
      ⟨code ++ (gap ++ c :: rest), code, gap, withoutTerminator (Text.trimRight (c :: rest))⟩ := by
  obtain ⟨more, trimmed⟩ := Text.trimRight_cons opening rest
  have region : Text.trimRight (code ++ (gap ++ c :: rest)) = code ++ (gap ++ c :: more) := by
    rw [← List.append_assoc, Text.trimRight_append (by rw [trimmed]; simp), trimmed,
      List.append_assoc]
  have kept : ∀ d ∈ code, (!isBlank d) = true := by simpa using solid
  have stops : ∀ d ∈ (gap ++ c :: more).head?, (!isBlank d) = false := by
    cases gap with
    | nil => exact absurd rfl some
    | cons d gap => simpa using blank d (by simp)
  have opens : ∀ d ∈ (c :: more).head?, isBlank d = false := by simpa using opening
  simp only [BareLine.ofText, takeWhile_unbroken unbroken, region, takeWhile_append_stop kept stops,
    dropWhile_append_stop kept stops, takeWhile_append_stop blank opens,
    dropWhile_append_stop blank opens, trimmed]

/-- A line with a message has a code, a gap and something behind it, since each of them is what
the reader takes from the front of the line. -/
theorem BareLine.exists_parts {line : Text} (unbroken : ∀ c ∈ line, isLineBreak c = false)
    (gap : (ofText line).gap ≠ []) (message : (ofText line).message ≠ []) :
    ∃ code gap c rest, line = code ++ (gap ++ c :: rest) ∧ (∀ d ∈ code, isBlank d = false) ∧
      gap ≠ [] ∧ (∀ d ∈ gap, isBlank d = true) ∧ isBlank c = false := by
  obtain ⟨margin, same, _⟩ := Text.trimRightWhile_append isBlank line
  change line = Text.trimRight line ++ margin at same
  simp only [ofText, takeWhile_unbroken unbroken] at gap message
  generalize Text.trimRight line = region at *
  have codePart := List.takeWhile_append_dropWhile (p := fun c => !isBlank c) (l := region)
  have gapPart := List.takeWhile_append_dropWhile (p := isBlank)
    (l := region.dropWhile fun c => !isBlank c)
  cases tail : (region.dropWhile fun c => !isBlank c).dropWhile isBlank with
  | nil =>
    rw [tail] at message
    exact absurd rfl message
  | cons c rest =>
    have stopped := List.head?_dropWhile_not isBlank (region.dropWhile fun c => !isBlank c)
    rw [tail] at stopped gapPart
    refine ⟨region.takeWhile fun c => !isBlank c, _, c, rest ++ margin, ?_, ?_, gap,
      List.all_eq_true.mp List.all_takeWhile, ?_⟩
    · calc line = region ++ margin := same
        _ = region.takeWhile (fun c => !isBlank c) ++
              ((region.dropWhile fun c => !isBlank c).takeWhile isBlank ++ c :: rest) ++ margin := by
            rw [gapPart, codePart]
        _ = _ := by simp only [List.append_assoc, List.cons_append]
    · intro d member
      simpa using List.all_eq_true.mp List.all_takeWhile d member
    · simpa using stopped

/-- A message without its terminator is the message but for a trailer of semicolons and blanks. -/
theorem withoutTerminator_append (message : Text) :
    ∃ trailer, message = withoutTerminator message ++ trailer ∧
      ∀ c ∈ trailer, isTrailer c = true := by
  unfold withoutTerminator
  split
  · rename_i terminated
    obtain ⟨body, rfl⟩ := List.getLast?_eq_some_iff.mp terminated
    obtain ⟨margin, same, blank⟩ := Text.trimRightWhile_append isBlank body
    refine ⟨margin ++ [';'], ?_, ?_⟩
    · rw [Text.trimRight, List.dropLast_concat, ← List.append_assoc, ← same]
    · intro c member
      rcases List.mem_append.mp member with inMargin | isLast
      · simp [isTrailer, blank c inMargin]
      · simp [isTrailer, List.mem_singleton.mp isLast]
  · exact ⟨[], by simp, by simp⟩

/-- The parts of a line stand one after the other, with a trailer behind them that holds the
terminator and blanks. -/
theorem BareLine.parts_append {line : Text} (unbroken : ∀ c ∈ line, isLineBreak c = false) :
    ∃ trailer, line = (ofText line).code ++ (ofText line).gap ++ (ofText line).message ++ trailer ∧
      ∀ c ∈ trailer, isTrailer c = true := by
  obtain ⟨margin, same, blank⟩ := Text.trimRightWhile_append isBlank line
  obtain ⟨ending, message, trailing⟩ := withoutTerminator_append
    (((Text.trimRight line).dropWhile fun c => !isBlank c).dropWhile isBlank)
  refine ⟨ending ++ margin, ?_, ?_⟩
  · have code := List.takeWhile_append_dropWhile (p := fun c => !isBlank c) (l := Text.trimRight line)
    have gap := List.takeWhile_append_dropWhile (p := isBlank)
      (l := (Text.trimRight line).dropWhile fun c => !isBlank c)
    simp only [ofText, takeWhile_unbroken unbroken]
    change line = Text.trimRight line ++ margin at same
    generalize Text.trimRight line = region at *
    calc line = region ++ margin := same
      _ = region.takeWhile (fun c => !isBlank c) ++
            ((region.dropWhile fun c => !isBlank c).takeWhile isBlank ++
              (withoutTerminator ((region.dropWhile fun c => !isBlank c).dropWhile isBlank) ++
                ending)) ++ margin := by rw [← message, gap, code]
      _ = _ := by simp only [List.append_assoc]
  · intro c member
    rcases List.mem_append.mp member with inEnding | inMargin
    · exact trailing c inEnding
    · simp [isTrailer, blank c inMargin]

end SqlRenewal
