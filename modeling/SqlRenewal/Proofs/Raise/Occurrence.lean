import SqlRenewal.Proofs.Raise.Keyword
import SqlRenewal.Proofs.Raise.BareLine

/-!
# Occurrences of the legacy keyword

The search for statements works with offsets; here its results are described by
the parts of the text itself. `Statement` is the grammar of what is replaced, and
`Leaves` lists the four ways in which an occurrence stays: nothing readable
follows the keyword, the argument list is never closed, its arguments cannot be
read, or the rest of the line cannot be read.
-/
namespace SqlRenewal

/-- A word has as many characters as the capitals that it spells. -/
theorem Spells.length_eq {capitals : List Char} {word : Text} (spelled : Spells capitals word) :
    word.length = capitals.length := by
  induction spelled with
  | nil => rfl
  | cons _ _ inductionHypothesis => simp [inductionHypothesis]

/-- The next keyword is `word`: `front` lacks it, and nothing joins it to its
neighbours. -/
structure Occurs (before : Option Char) (front word after : Text) : Prop where
  lacking : Lacks raiseWord before front (word ++ after)
  opened : endsWord (lastOf before front) = true
  spelled : Spells raiseWord word
  closed : endsWord after.head? = true

/-- A text lacks the keyword, or the keyword occurs in it for the first time somewhere. This is
the case split of every induction over its occurrences. -/
theorem lacks_or_occurs (before : Option Char) (text : Text) :
    Lacks raiseWord before text [] ∨
      ∃ front word after, text = front ++ word ++ after ∧ Occurs before front word after := by
  cases found : firstRaise? before text with
  | none => exact .inl (firstRaise?_eq_none_iff.mp found)
  | some position =>
    obtain ⟨front, rest, rfl, _, lacking, starts⟩ := firstRaise?_eq_some_iff.mp found
    obtain ⟨opened, word, after, rfl, spelled, closed⟩ := startsWord_iff.mp starts
    exact .inr ⟨front, word, after, by simp, lacking, opened, spelled, closed⟩

/-- Where the keyword does not start, there is nothing to see. -/
theorem sight_of_lacks {before : Option Char} {text : Text}
    (lacking : Lacks raiseWord before text []) : sight before text = .absent := by
  simp [sight, firstRaise?_eq_none_iff.mpr lacking]

/-- What follows the next keyword decides. The part before it lacks the keyword, so the search
stops there, and the keyword itself has a fixed length. -/
theorem Occurs.sight_eq {before : Option Char} {front word after : Text}
    (occurs : Occurs before front word after) :
    sight before (front ++ word ++ after) = sightAt front.length after := by
  have starts : startsWord raiseWord (lastOf before front) (word ++ after) = true :=
    startsWord_iff.mpr ⟨occurs.opened, word, after, rfl, occurs.spelled, occurs.closed⟩
  have found : firstRaise? before (front ++ word ++ after) = some front.length :=
    firstRaise?_eq_some_iff.mpr ⟨front, word ++ after, by simp, rfl, occurs.lacking, starts⟩
  have dropped : (front ++ word ++ after).drop (front.length + raiseWord.length) = after := by
    rw [← occurs.spelled.length_eq, ← List.length_append, List.drop_left]
  simp only [sight, found, dropped]

/-! ### What follows the keyword -/

/-- Neither an argument list nor a code follows. -/
def Unrecognized (after : Text) : Prop :=
  (after.dropWhile isBlank).head? ≠ some '(' ∧
    ¬(after.takeWhile isInlineBlank ≠ [] ∧ (after.dropWhile isInlineBlank).head?.any isDigit = true)

/-- A keyword before a parenthesis, with blanks between the two at most, is seen as a
parenthesized statement. -/
theorem sightAt_parenthesized (position : Nat) {blanks : Text}
    (blank : ∀ c ∈ blanks, isBlank c = true) (inside : Text) :
    sightAt position (blanks ++ '(' :: inside) =
      sightParenthesized position (position + raiseWord.length + blanks.length + 1)
        (by omega) inside := by
  have stops : ∀ c ∈ ('(' :: inside).head?, isBlank c = false := by
    intro c first
    cases first
    decide
  simp only [sightAt, dropWhile_append_stop blank stops, takeWhile_append_stop blank stops]

/-- A blank within a line is a blank. -/
theorem isBlank_of_isInlineBlank {c : Char} (inline : isInlineBlank c = true) : isBlank c = true := by
  simp only [isInlineBlank, Bool.or_eq_true, beq_iff_eq] at inline
  rcases inline with rfl | rfl <;> decide

/-- A keyword before a digit, on the same line and apart from it, is seen as a bare statement. The
blanks between them are all skipped, and the digit stops the skip. -/
theorem sightAt_bare (position : Nat) {margin rest : Text} (some : margin ≠ [])
    (inline : ∀ c ∈ margin, isInlineBlank c = true) (digit : rest.head?.any isDigit = true) :
    sightAt position (margin ++ rest) =
      sightBare position (position + raiseWord.length + margin.length)
        (Nat.lt_add_right margin.length (Nat.lt_add_of_pos_right raiseWord_length_pos))
        (.ofText rest) := by
  cases rest with
  | nil => simp at digit
  | cons d rest =>
    have isDigit : isDigit d = true := by simpa using digit
    have unblank : isBlank d = false := isBlank_of_isDigit isDigit
    have notInline : isInlineBlank d = false := by
      cases found : isInlineBlank d with
      | false => rfl
      | true => rw [isBlank_of_isInlineBlank found] at unblank; cases unblank
    have notOpening : d ≠ '(' := by
      rintro rfl
      exact absurd isDigit (by decide)
    have blank : ∀ c ∈ margin, isBlank c = true :=
      fun c member => isBlank_of_isInlineBlank (inline c member)
    have afterBlanks : (margin ++ d :: rest).dropWhile isBlank = d :: rest :=
      dropWhile_append_stop blank (by simpa using unblank)
    have afterMargin : (margin ++ d :: rest).dropWhile isInlineBlank = d :: rest :=
      dropWhile_append_stop inline (by simpa using notInline)
    have wholeMargin : (margin ++ d :: rest).takeWhile isInlineBlank = margin :=
      takeWhile_append_stop inline (by simpa using notInline)
    unfold sightAt
    simp only [afterBlanks, afterMargin, wholeMargin]
    split
    · rename_i same
      exact absurd (List.cons.inj same).1 notOpening
    · rw [if_pos ⟨some, digit⟩]

/-- A keyword before anything else is skipped, and the scan goes on right behind it. -/
theorem sightAt_unrecognized (position : Nat) {after : Text} (unread : Unrecognized after) :
    sightAt position after = .skipped ⟨position, position + raiseWord.length, .unrecognized,
      Nat.lt_add_of_pos_right raiseWord_length_pos⟩ := by
  unfold sightAt
  dsimp only
  split
  · rename_i inside same
    exact absurd (by rw [same]; rfl) unread.1
  · rw [if_neg unread.2]

/-- A keyword is followed by an argument list, by a code, or by neither. The first two are asked
for in this order, as the scan does, and what is left is the third. -/
theorem after_cases (after : Text) :
    (∃ blanks inside, after = blanks ++ '(' :: inside ∧ ∀ c ∈ blanks, isBlank c = true) ∨
      (∃ margin rest, after = margin ++ rest ∧ margin ≠ [] ∧
        (∀ c ∈ margin, isInlineBlank c = true) ∧ rest.head?.any isDigit = true) ∨
      Unrecognized after := by
  by_cases opening : (after.dropWhile isBlank).head? = some '('
  · obtain ⟨inside, same⟩ := List.head?_eq_some_iff.mp opening
    refine .inl ⟨after.takeWhile isBlank, inside, ?_, List.all_eq_true.mp List.all_takeWhile⟩
    rw [← same, List.takeWhile_append_dropWhile]
  · by_cases bare : after.takeWhile isInlineBlank ≠ [] ∧
        (after.dropWhile isInlineBlank).head?.any isDigit = true
    · refine .inr (.inl ⟨after.takeWhile isInlineBlank, after.dropWhile isInlineBlank, ?_, bare.1,
        List.all_eq_true.mp List.all_takeWhile, bare.2⟩)
      rw [List.takeWhile_append_dropWhile]
    · exact .inr (.inr ⟨opening, bare⟩)

/-- A text begins with a line, which may be empty: it is what stands in front of the first line
break, or the whole text without one. -/
theorem line_split (text : Text) : ∃ line rest, text = line ++ rest ∧
    (∀ c ∈ line, isLineBreak c = false) ∧ AtLineEnd rest := by
  refine ⟨text.takeWhile fun c => !isLineBreak c, text.dropWhile fun c => !isLineBreak c, ?_, ?_, ?_⟩
  · rw [List.takeWhile_append_dropWhile]
  · intro c member
    simpa using List.all_eq_true.mp List.all_takeWhile c member
  · cases ending : text.dropWhile fun c => !isLineBreak c with
    | nil => exact .inl rfl
    | cons c rest =>
      have stopped := List.head?_dropWhile_not (fun c => !isLineBreak c) text
      rw [ending] at stopped
      exact .inr ⟨c, rest, rfl, by simpa using stopped⟩

/-- A digit at the beginning belongs to the first line. If the line were empty, the text would
begin with a line break, which is no digit. -/
theorem head_digit_of_append {line rest : Text} (digit : (line ++ rest).head?.any isDigit = true)
    (ends : AtLineEnd rest) : line.head?.any isDigit = true := by
  cases line with
  | cons c line => simpa using digit
  | nil =>
    rcases ends with rfl | ⟨c, more, rfl, broken⟩
    · simp at digit
    · have isDigit : isDigit c = true := by simpa using digit
      simp only [isLineBreak, Bool.or_eq_true, beq_iff_eq] at broken
      rcases broken with rfl | rfl <;> exact absurd isDigit (by decide)

/-- Neither a blank nor a digit, and not the opening of an argument list. -/
def isSolid (c : Char) : Bool :=
  !isBlank c && !isDigit c && c != '('

/-- The texts agree up to a place where both are solid. -/
def Akin (first second : Text) : Prop :=
  first = second ∨ ∃ front c d left right, first = front ++ c :: left ∧
    second = front ++ d :: right ∧ isSolid c = true ∧ isSolid d = true

/-- Texts that are akin stay so behind the same character. -/
theorem Akin.cons {first second : Text} (akin : Akin first second) (c : Char) :
    Akin (c :: first) (c :: second) := by
  rcases akin with rfl | ⟨front, d, e, left, right, rfl, rfl, solid, also⟩
  · exact .inl rfl
  · exact .inr ⟨c :: front, d, e, left, right, rfl, rfl, solid, also⟩

/-- What is taken up to a character that stops is the same, whatever follows that character. -/
theorem takeWhile_append_cons {keep : Char → Bool} {c : Char} (stops : keep c = false)
    (front rest : Text) : (front ++ c :: rest).takeWhile keep = front.takeWhile keep := by
  induction front with
  | nil => simp [stops]
  | cons d front inductionHypothesis =>
    simp only [List.cons_append, List.takeWhile_cons, inductionHypothesis]

/-- What is left after dropping up to a character that stops begins with that character at the
latest. -/
theorem head?_dropWhile_append_cons {keep : Char → Bool} {c : Char} (stops : keep c = false)
    (front rest : Text) :
    ((front ++ c :: rest).dropWhile keep).head? = some ((front.dropWhile keep).head?.getD c) := by
  induction front with
  | nil => simp [stops]
  | cons d front inductionHypothesis =>
    by_cases kept : keep d = true
    · rw [List.cons_append, List.dropWhile_cons_of_pos kept, List.dropWhile_cons_of_pos kept,
        inductionHypothesis]
    · rw [List.cons_append, List.dropWhile_cons_of_neg kept, List.dropWhile_cons_of_neg kept]
      rfl

/-- What follows the keyword is recognised up to the first solid character, so a text that differs
only behind that is not recognised either. -/
theorem Unrecognized.akin {first second : Text} (unread : Unrecognized first)
    (akin : Akin first second) : Unrecognized second := by
  rcases akin with rfl | ⟨front, c, d, left, right, rfl, rfl, solid, also⟩
  · exact unread
  · have parts {e : Char} (solid : isSolid e = true) :
        isBlank e = false ∧ isInlineBlank e = false ∧ isDigit e = false ∧ e ≠ '(' := by
      simp only [isSolid, Bool.and_eq_true, Bool.not_eq_true', bne_iff_ne] at solid
      refine ⟨solid.1.1, ?_, solid.1.2, solid.2⟩
      cases inline : isInlineBlank e with
      | false => rfl
      | true => rw [isBlank_of_isInlineBlank inline] at solid; exact absurd solid.1.1 (by simp)
    obtain ⟨blank, inline, digit, opening⟩ := parts solid
    obtain ⟨blank', inline', digit', opening'⟩ := parts also
    unfold Unrecognized at unread ⊢
    rw [head?_dropWhile_append_cons blank, head?_dropWhile_append_cons inline,
      takeWhile_append_cons inline] at unread
    rw [head?_dropWhile_append_cons blank', head?_dropWhile_append_cons inline',
      takeWhile_append_cons inline']
    constructor
    · cases dropped : front.dropWhile isBlank with
      | nil => simpa using opening'
      | cons e more => simpa [dropped] using unread.1
    · cases dropped : front.dropWhile isInlineBlank with
      | nil => simp [digit']
      | cons e more => simpa [dropped] using unread.2

/-! ### Readable arguments -/

/-- The argument list holds no keyword and has a reading. -/
def ArgumentsRead (arguments : Text) (reading : Reading) : Prop :=
  hasRaise arguments = false ∧ readArguments arguments = .ok reading

/-- The line has a code and a message without a keyword, and they have a reading. -/
def LineReads (line : Text) (reading : Reading) : Prop :=
  (BareLine.ofText line).gap ≠ [] ∧ (BareLine.ofText line).message ≠ [] ∧
    hasRaise (BareLine.ofText line).message = false ∧
    readBare (BareLine.ofText line).code (BareLine.ofText line).message = .ok reading

/-- A legacy statement with its layout, its arguments as written, and their reading. -/
inductive Statement : Layout → Text → Text → Reading → Prop where
  | parenthesized {word blanks arguments : Text} {reading : Reading}
      (spelled : Spells raiseWord word) (blank : ∀ c ∈ blanks, isBlank c = true)
      (balanced : Balanced arguments) (read : ArgumentsRead arguments reading) :
      Statement .parenthesized arguments (word ++ blanks ++ '(' :: arguments ++ [')']) reading
  | bare {word margin code gap message : Text} {reading : Reading}
      (spelled : Spells raiseWord word) (some : margin ≠ [])
      (inline : ∀ c ∈ margin, isInlineBlank c = true) (blank : ∀ c ∈ gap, isBlank c = true)
      (lacking : hasRaise message = false) (read : readBare code message = .ok reading) :
      Statement (.bare code message) (code ++ gap ++ message)
        (word ++ margin ++ (code ++ gap ++ message)) reading

/-- The next occurrence stays: `kept` ends behind what could not be read, and the
search may go on with `rest`. -/
inductive Leaves (before : Option Char) : Text → Text → Prop where
  | unrecognized {front word after : Text} (occurs : Occurs before front word after)
      (unread : Unrecognized after) : Leaves before (front ++ word) after
  | unclosed {front word blanks inside : Text}
      (occurs : Occurs before front word (blanks ++ '(' :: inside))
      (blank : ∀ c ∈ blanks, isBlank c = true) (open' : StaysAbove 0 inside) :
      Leaves before (front ++ word ++ blanks ++ ['(']) inside
  | arguments {front word blanks arguments rest : Text}
      (occurs : Occurs before front word (blanks ++ '(' :: (arguments ++ ')' :: rest)))
      (blank : ∀ c ∈ blanks, isBlank c = true) (balanced : Balanced arguments)
      (unread : ∀ reading, ¬ArgumentsRead arguments reading) :
      Leaves before (front ++ word ++ blanks ++ '(' :: arguments ++ [')']) rest
  | line {front word margin line rest : Text}
      (occurs : Occurs before front word (margin ++ (line ++ rest))) (some : margin ≠ [])
      (inline : ∀ c ∈ margin, isInlineBlank c = true) (digit : line.head?.any isDigit = true)
      (unbroken : ∀ c ∈ line, isLineBreak c = false) (ends : AtLineEnd rest)
      (unread : ∀ reading, ¬LineReads line reading) :
      Leaves before (front ++ word ++ margin ++ line) rest

/-! ### Changes around an occurrence -/

/-- What follows a keyword may change as long as nothing joins it. -/
theorem Occurs.change {before : Option Char} {front word after other : Text}
    (occurs : Occurs before front word after) (closed : endsWord other.head? = true) :
    Occurs before front word other :=
  ⟨lacks_change_rest raiseWord_known occurs.lacking occurs.opened _, occurs.opened, occurs.spelled,
    closed⟩

/-- A part without the keyword may be put in front. -/
theorem Occurs.prepend {before : Option Char} {more front word after : Text}
    (lacking : Lacks raiseWord before more (front ++ word ++ after))
    (occurs : Occurs (lastOf before more) front word after) :
    Occurs before (more ++ front) word after := by
  refine ⟨?_, by rw [lastOf_append]; exact occurs.opened, occurs.spelled, occurs.closed⟩
  rw [lacks_append]
  exact ⟨by simpa using lacking, occurs.lacking⟩

/-- What is left alone stays so behind a text without the keyword: the occurrence is the same one,
and what follows it has not changed. There is one case for each way of being left. -/
theorem Leaves.prepend {before : Option Char} {more kept rest : Text}
    (lacking : Lacks raiseWord before more (kept ++ rest))
    (leaves : Leaves (lastOf before more) kept rest) : Leaves before (more ++ kept) rest := by
  cases leaves with
  | unrecognized occurs unread =>
    rw [← List.append_assoc]
    exact .unrecognized (occurs.prepend lacking) unread
  | unclosed occurs blank open' =>
    have moved := Leaves.unclosed (occurs.prepend (by simpa using lacking)) blank open'
    simpa only [List.append_assoc] using moved
  | arguments occurs blank balanced unread =>
    have moved := Leaves.arguments (occurs.prepend (by simpa using lacking)) blank balanced unread
    simpa only [List.append_assoc] using moved
  | line occurs some inline digit unbroken ends unread =>
    have moved :=
      Leaves.line (occurs.prepend (by simpa using lacking)) some inline digit unbroken ends unread
    simpa only [List.append_assoc] using moved

end SqlRenewal
