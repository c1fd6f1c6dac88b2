import SqlRenewal.Text.Digit
import SqlRenewal.Text.Keyword
import SqlRenewal.Raise.Span
import SqlRenewal.Raise.Parenthesis

/-!
# Finding legacy statements

The keyword `RAISERROR`, as a word of its own, opens a legacy statement. Two
shapes are read: an argument list in parentheses, bounded by matching depth, and
a code followed by a message, bounded by the end of the line. String literals
and comments are not distinguished.

A search sees the text that is still to come and the one character before it.
All offsets it reports count from where it started, and what it reports never
reaches beyond the end of the text (`Sighting.stop_le`).
-/
namespace SqlRenewal

/-- The keyword of a legacy statement. -/
def raiseWord : List Char := ['R', 'A', 'I', 'S', 'E', 'R', 'R', 'O', 'R']

/-- The keyword stands at the beginning of the text as a word of its own. -/
def startsRaise (before : Option Char) (text : Text) : Bool :=
  endsWord before && (dropWord? raiseWord text).isSome

/-- The offset of the first keyword. -/
def firstRaise? : Option Char → Text → Option Nat
  | _, [] => none
  | before, c :: rest =>
    if startsRaise before (c :: rest) then some 0
    else (firstRaise? (some c) rest).map (· + 1)

/-- The number of keywords in a text. -/
def countRaises : Option Char → Text → Nat
  | _, [] => 0
  | before, c :: rest =>
    (if startsRaise before (c :: rest) then 1 else 0) + countRaises (some c) rest

/-- The text has a keyword of its own. -/
def hasRaise (text : Text) : Bool :=
  (firstRaise? none text).isSome

/-- Reads the argument list of the keyword at `position` whose opening
parenthesis stands just before the offset `opened`. -/
def sightParenthesized (position opened : Nat) (after : position < opened) (inside : Text) :
    Sighting :=
  match closeAt? 1 inside with
  | none => .skipped ⟨position, opened, .unclosed, after⟩
  | some length =>
    if hasRaise (inside.take length) then
      .skipped ⟨position, opened + length + 1, .nested, by omega⟩
    else .found ⟨position, opened + length + 1, inside.take length, .parenthesized, by omega⟩

/-- The message of a bare statement: one terminator at its end stays outside. -/
def withoutTerminator (message : Text) : Text :=
  if message.getLast? = some ';' then Text.trimRight message.dropLast else message

/-- The rest of a line taken apart at its first blanks. -/
structure BareLine where
  line : Text
  code : Text
  gap : Text
  message : Text

/-- The line at the beginning of a text: the code runs to the first blank, the
message from the next character that is not blank to the last one. -/
def BareLine.ofText (text : Text) : BareLine :=
  let line := text.takeWhile fun c => !isLineBreak c
  let region := Text.trimRight line
  let tail := region.dropWhile fun c => !isBlank c
  { line
    code := region.takeWhile fun c => !isBlank c
    gap := tail.takeWhile isBlank
    message := withoutTerminator (tail.dropWhile isBlank) }

/-- Reads code and message of the keyword at `position`, where the line begins
with the code at the offset `start`. -/
def sightBare (position start : Nat) (after : position < start) (parts : BareLine) : Sighting :=
  let stop := start + parts.code.length + parts.gap.length + parts.message.length
  if parts.gap = [] then .skipped ⟨position, start + parts.line.length, .noGap, by omega⟩
  else if parts.message = [] then
    .skipped ⟨position, start + parts.line.length, .noMessage, by omega⟩
  else if hasRaise parts.message then .skipped ⟨position, stop, .nested, by omega⟩
  else
    .found ⟨position, stop, parts.code ++ parts.gap ++ parts.message,
      .bare parts.code parts.message, by omega⟩

/-- The keyword is not empty. -/
theorem raiseWord_length_pos : 0 < raiseWord.length := by decide

/-- What follows a keyword at `position` decides its shape. -/
def sightAt (position : Nat) (after : Text) : Sighting :=
  let keywordEnd := position + raiseWord.length
  have forward : position < keywordEnd := Nat.lt_add_of_pos_right raiseWord_length_pos
  let blanks := after.takeWhile isBlank
  match after.dropWhile isBlank with
  | '(' :: inside =>
    sightParenthesized position (keywordEnd + blanks.length + 1)
      (Nat.lt_add_right 1 (Nat.lt_add_right blanks.length forward)) inside
  | _ =>
    let margin := after.takeWhile isInlineBlank
    let rest := after.dropWhile isInlineBlank
    if margin ≠ [] ∧ rest.head?.any isDigit then
      sightBare position (keywordEnd + margin.length) (Nat.lt_add_right margin.length forward)
        (.ofText rest)
    else .skipped ⟨position, keywordEnd, .unrecognized, forward⟩

/-- The next legacy statement of a text that follows the given character. -/
def sight (before : Option Char) (text : Text) : Sighting :=
  match firstRaise? before text with
  | none => .absent
  | some position => sightAt position (text.drop (position + raiseWord.length))

/-- The next legacy statement at or after an offset. The character before the
offset still decides whether a keyword there is a word of its own. -/
def locate (text : Text) (offset : Int) : Sighting :=
  let start := min offset.toNat text.length
  (sight (text.take start).getLast? (text.drop start)).shift start

/-- The next legacy statement at or after an offset that fits into a word. -/
def locateFrom (text : Text) (offset : Int) : Except WordOverflow Sighting :=
  if fitsWord offset then .ok (locate text offset) else .error ⟨⟩

/-- How far a sighting reaches. -/
def Sighting.stop : Sighting → Nat
  | .found span => span.stop
  | .skipped skip => skip.resume
  | .absent => 0

/-- A keyword and what follows it make up the text. -/
theorem dropKeyword?_length {capitals : List Char} {text rest : Text}
    (dropped : dropKeyword? capitals text = some rest) :
    text.length = capitals.length + rest.length := by
  induction capitals generalizing text with
  | nil => cases dropped; simp
  | cons capital capitals inductionHypothesis =>
    cases text with
    | nil => simp [dropKeyword?] at dropped
    | cons c tail =>
      simp only [dropKeyword?] at dropped
      split at dropped
      · have lengths := inductionHypothesis dropped
        simp only [List.length_cons]
        omega
      · simp at dropped

/-- A keyword lies inside the text. -/
theorem firstRaise?_le {before : Option Char} {text : Text} {position : Nat}
    (found : firstRaise? before text = some position) :
    position + raiseWord.length ≤ text.length := by
  induction text generalizing before position with
  | nil => simp [firstRaise?] at found
  | cons c rest inductionHypothesis =>
    simp only [firstRaise?] at found
    split at found
    · rename_i starts
      cases found
      simp only [startsRaise, Bool.and_eq_true, dropWord?, Option.isSome_filter, Option.any_eq_true]
        at starts
      obtain ⟨_, remainder, dropped, _⟩ := starts
      have lengths := dropKeyword?_length dropped
      omega
    · obtain ⟨inner, later, rfl⟩ := Option.map_eq_some_iff.mp found
      have bound := inductionHypothesis later
      simp only [List.length_cons]
      omega

/-- Trimming the end makes no text longer. -/
theorem Text.trimRightWhile_length_le (drop : Char → Bool) (text : Text) :
    (Text.trimRightWhile drop text).length ≤ text.length := by
  have bound := (List.dropWhile_sublist drop (l := text.reverse)).length_le
  simpa [Text.trimRightWhile] using bound

/-- Leaving out a terminator makes no message longer. -/
theorem withoutTerminator_length_le (message : Text) :
    (withoutTerminator message).length ≤ message.length := by
  unfold withoutTerminator
  split
  · have bound := Text.trimRightWhile_length_le isBlank message.dropLast
    simp only [Text.trimRight, List.length_dropLast] at bound ⊢
    omega
  · exact Nat.le_refl _

/-- The part before a place and the part after it make up the text. -/
theorem takeWhile_length_add_dropWhile_length (keep : Char → Bool) (text : Text) :
    (text.takeWhile keep).length + (text.dropWhile keep).length = text.length := by
  rw [← List.length_append, List.takeWhile_append_dropWhile]

/-- An argument list ends inside the text. -/
theorem sightParenthesized_stop_le (position opened : Nat) (after : position < opened)
    (inside : Text) :
    (sightParenthesized position opened after inside).stop ≤ opened + inside.length := by
  unfold sightParenthesized
  split
  · simp [Sighting.stop]
  · rename_i length closed
    have bound := closeAt?_lt closed
    split <;> simp only [Sighting.stop] <;> omega

/-- The line of a bare statement lies inside the text. -/
theorem BareLine.line_le (text : Text) : (ofText text).line.length ≤ text.length :=
  (List.takeWhile_sublist _).length_le

/-- Code, gap and message lie inside the line. -/
theorem BareLine.parts_le (text : Text) :
    (ofText text).code.length + (ofText text).gap.length + (ofText text).message.length ≤
      (ofText text).line.length := by
  have region := Text.trimRightWhile_length_le isBlank (ofText text).line
  have wordAndTail := takeWhile_length_add_dropWhile_length (fun c => !isBlank c)
    (Text.trimRight (ofText text).line)
  have gapAndMessage := takeWhile_length_add_dropWhile_length isBlank
    ((Text.trimRight (ofText text).line).dropWhile fun c => !isBlank c)
  have message := withoutTerminator_length_le
    (((Text.trimRight (ofText text).line).dropWhile fun c => !isBlank c).dropWhile isBlank)
  simp only [Text.trimRight, ofText] at region wordAndTail gapAndMessage message ⊢
  omega

/-- A bare statement ends inside the text. -/
theorem sightBare_stop_le (position start : Nat) (after : position < start) (text : Text) :
    (sightBare position start after (.ofText text)).stop ≤ start + text.length := by
  have line := BareLine.line_le text
  have parts := BareLine.parts_le text
  unfold sightBare
  dsimp only
  split
  · simp only [Sighting.stop]; omega
  · split
    · simp only [Sighting.stop]; omega
    · split <;> simp only [Sighting.stop] <;> omega

/-- Whatever is found or skipped ends inside the text. -/
theorem Sighting.stop_le (before : Option Char) (text : Text) :
    (sight before text).stop ≤ text.length := by
  unfold sight
  split
  · simp [Sighting.stop]
  · rename_i position found
    have room := firstRaise?_le found
    have blanks := takeWhile_length_add_dropWhile_length isBlank
      (text.drop (position + raiseWord.length))
    have margin := takeWhile_length_add_dropWhile_length isInlineBlank
      (text.drop (position + raiseWord.length))
    have dropped := List.length_drop (i := position + raiseWord.length) (l := text)
    unfold sightAt
    dsimp only
    split
    · rename_i inside opened
      have bound := sightParenthesized_stop_le position
        (position + raiseWord.length +
          ((text.drop (position + raiseWord.length)).takeWhile isBlank).length + 1)
        (by omega) inside
      rw [opened] at blanks
      simp only [List.length_cons] at blanks
      omega
    · split
      · have bound := sightBare_stop_le position
          (position + raiseWord.length +
            ((text.drop (position + raiseWord.length)).takeWhile isInlineBlank).length)
          (by have := Nat.lt_add_of_pos_right (n := position) (k := raiseWord.length) (by decide); omega)
          ((text.drop (position + raiseWord.length)).dropWhile isInlineBlank)
        omega
      · simp only [Sighting.stop]
        omega

end SqlRenewal
