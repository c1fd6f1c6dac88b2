import SqlRenewal.Proofs.Renewal.EditScript

/-!
# The grammar of the search

The search goes to the first keyword at or after an offset and reads what follows it.
Here the two shapes that it finds are said without the search: `ParenthesizedAt` and
`BareAt` take the text apart around a place and name the parts. The search finds a
statement exactly if one of them fits at the first keyword, with the bounds and the
parts that the shape gives; at any other keyword it skips.

Blanks around a bare statement belong to no part of it, nor does one terminator at the
end of its line. Both are taken off the whole line here and off the message by the
search, which comes to the same wherever there is a message.
-/
namespace SqlRenewal

/-! ### Keywords and their places -/

/-- The keyword stands at the place as a word of its own: a writing of it begins there,
and no character of a word is next to it. -/
def KeywordAt (text : Text) (place : Nat) : Prop :=
  ∃ front word after, text = front ++ word ++ after ∧ front.length = place ∧
    Spells raiseWord word ∧ endsWord front.getLast? = true ∧ endsWord after.head? = true

/-- The first keyword that begins at the offset or behind it. -/
structure FirstKeyword (text : Text) (offset place : Nat) : Prop where
  reached : offset ≤ place
  stands : KeywordAt text place
  first : ∀ other, offset ≤ other → KeywordAt text other → place ≤ other

/-- Where nothing stands before a text, the character before its end is its last one, if it has
one. -/
theorem lastOf_none (text : Text) : lastOf none text = text.getLast? := by
  simp [lastOf]

/-- The character before a position is the last one of all that stands before it. -/
theorem lastOf_getLast? (lead front : Text) :
    lastOf lead.getLast? front = (lead ++ front).getLast? := by
  rw [← lastOf_none, ← lastOf_none, lastOf_append]

/-- The keyword stands at a place if the text can be cut there, and the rest starts with the
keyword behind what is before it. -/
theorem keywordAt_iff {text : Text} {place : Nat} :
    KeywordAt text place ↔ ∃ front rest, text = front ++ rest ∧ front.length = place ∧
      startsWord raiseWord front.getLast? rest = true := by
  constructor
  · rintro ⟨front, word, after, rfl, length, spelled, opened, closed⟩
    exact ⟨front, word ++ after, by simp, length,
      startsWord_iff.mpr ⟨opened, word, after, rfl, spelled, closed⟩⟩
  · rintro ⟨front, rest, rfl, length, starts⟩
    obtain ⟨opened, word, after, rfl, spelled, closed⟩ := startsWord_iff.mp starts
    exact ⟨front, word, after, by simp, length, spelled, opened, closed⟩

/-- A keyword behind an offset lies in the text behind it. What stands before the keyword then
begins with the part up to the offset, which can be taken off. -/
theorem KeywordAt.behind {lead tail : Text} {place : Nat} (stands : KeywordAt (lead ++ tail) place)
    (reached : lead.length ≤ place) :
    ∃ front rest, tail = front ++ rest ∧ place = lead.length + front.length ∧
      startsWord raiseWord (lastOf lead.getLast? front) rest = true := by
  obtain ⟨whole, rest, same, rfl, starts⟩ := keywordAt_iff.mp stands
  obtain ⟨front, rfl⟩ : lead <+: whole :=
    List.prefix_of_prefix_length_le (same ▸ List.prefix_append lead tail)
      (List.prefix_append whole rest) reached
  rw [List.append_assoc, List.append_cancel_left_eq] at same
  exact ⟨front, rest, same, by simp, by rwa [lastOf_getLast?]⟩

/-- The text behind an offset lacks the keyword exactly if none stands there. A keyword that stood
there would begin inside the text, and a text that does not lack it has an occurrence. -/
theorem lacks_iff_forall_keywordAt {lead tail : Text} :
    Lacks raiseWord lead.getLast? tail [] ↔
      ∀ place, lead.length ≤ place → ¬KeywordAt (lead ++ tail) place := by
  constructor
  · intro lacking place reached stands
    obtain ⟨front, rest, same, _, starts⟩ := stands.behind reached
    obtain ⟨more, _, none⟩ :=
      lacking.before_start (by rw [List.append_nil]; exact same) starts
    obtain ⟨_, rfl⟩ := List.append_eq_nil_iff.mp none.symm
    obtain ⟨_, word, after, none, spelled, _⟩ := startsWord_iff.mp starts
    exact spelled.ne_nil (by decide) (List.append_eq_nil_iff.mp none.symm).1
  · intro absent
    rcases lacks_or_occurs lead.getLast? tail with lacking | ⟨front, word, after, rfl, occurs⟩
    · exact lacking
    · refine absurd ?_ (absent (lead ++ front).length (by simp))
      exact ⟨lead ++ front, word, after, by simp, rfl, occurs.spelled,
        by rw [← lastOf_getLast?]; exact occurs.opened, occurs.closed⟩

/-- A text has no keyword exactly if it has none at any place, which is what the search goes
through. -/
theorem hasRaise_eq_false_iff_keywordAt {text : Text} :
    hasRaise text = false ↔ ∀ place, ¬KeywordAt text place := by
  have whole := @lacks_iff_forall_keywordAt [] text
  rw [hasRaise_eq_false_iff]
  simpa using whole

/-- What occurs next behind an offset is the first keyword there, because the part in front of it
lacks the keyword. -/
theorem Occurs.firstKeyword {lead front word after : Text}
    (occurs : Occurs lead.getLast? front word after) :
    FirstKeyword (lead ++ (front ++ word ++ after)) lead.length (lead.length + front.length) := by
  refine ⟨by omega, ?_, ?_⟩
  · exact ⟨lead ++ front, word, after, by simp, by simp, occurs.spelled,
      by rw [← lastOf_getLast?]; exact occurs.opened, occurs.closed⟩
  · intro other reached stands
    obtain ⟨begun, rest, same, rfl, starts⟩ := stands.behind reached
    rw [List.append_assoc] at same
    obtain ⟨more, rfl, _⟩ := occurs.lacking.before_start same starts
    simp only [List.length_append]
    omega

/-! ### The two shapes -/

/-- The span covers the statement between the two other parts of the text. -/
structure Span.Covers (span : Span) (text front statement rest : Text) : Prop where
  whole : text = front ++ statement ++ rest
  starts : span.start = front.length
  stops : span.stop = (front ++ statement).length

/-- A keyword, blanks, and an argument list without keywords up to the parenthesis that
matches the first one. -/
def ParenthesizedAt (text : Text) (place : Nat) (span : Span) : Prop :=
  ∃ front word blanks rest,
    span.Covers text front (word ++ blanks ++ '(' :: span.arguments ++ [')']) rest ∧
    front.length = place ∧ Spells raiseWord word ∧ (∀ c ∈ blanks, isBlank c = true) ∧
    Balanced span.arguments ∧ (∀ other, ¬KeywordAt span.arguments other) ∧
    span.layout = .parenthesized

/-- A line, without the blanks at its end and without one terminator there, is a code, a
gap and a message. -/
structure CodeAndMessage (line code gap message : Text) : Prop where
  whole : withoutTerminator (Text.trimRight line) = code ++ gap ++ message
  codeSome : code ≠ []
  codeSolid : ∀ c ∈ code, isBlank c = false
  gapSome : gap ≠ []
  gapBlank : ∀ c ∈ gap, isBlank c = true
  messageSome : message ≠ []
  messageSolid : ∀ c ∈ message.head?, isBlank c = false

/-- A keyword, spaces or tabs, and a line that begins with a digit and has a code and a
message without keywords, with a trailer behind it. What follows the keyword opens no
argument list. -/
def BareAt (text : Text) (place : Nat) (span : Span) : Prop :=
  ∃ front word margin code gap message trailer rest,
    span.Covers text front (word ++ margin ++ (code ++ gap ++ message)) (trailer ++ rest) ∧
    front.length = place ∧ Spells raiseWord word ∧
    ((margin ++ (code ++ gap ++ message ++ trailer ++ rest)).dropWhile isBlank).head? ≠ some '(' ∧
    margin ≠ [] ∧ (∀ c ∈ margin, isInlineBlank c = true) ∧ code.head?.any isDigit = true ∧
    (∀ c ∈ code ++ gap ++ message ++ trailer, isLineBreak c = false) ∧ AtLineEnd rest ∧
    CodeAndMessage (code ++ gap ++ message ++ trailer) code gap message ∧
    (∀ other, ¬KeywordAt message other) ∧
    span.arguments = code ++ gap ++ message ∧ span.layout = .bare code message

/-! ### The line of a bare statement -/

/-- A terminator belongs to the last part of a text, unless nothing of that is left. -/
theorem withoutTerminator_behind {first second : Text} (left : withoutTerminator second ≠ []) :
    withoutTerminator (first ++ second) = first ++ withoutTerminator second := by
  have some : second ≠ [] := by
    rintro rfl
    exact left rfl
  have last : (first ++ second).getLast? = second.getLast? := by
    rw [List.getLast?_append, List.getLast?_eq_some_getLast some, Option.some_or]
  unfold withoutTerminator at left ⊢
  rw [last]
  split
  · rename_i terminated
    rw [if_pos terminated] at left
    rw [List.dropLast_append_of_ne_nil some, Text.trimRight_append left]
  · rfl

/-- A text that begins with something else than a blank loses a terminator only behind
that, or is nothing but a terminator. -/
theorem withoutTerminator_cons {c : Char} (solid : isBlank c = false) (more : Text) :
    (∃ rest, withoutTerminator (c :: more) = c :: rest) ∨ c :: more = [';'] := by
  unfold withoutTerminator
  split
  · rename_i terminated
    cases more with
    | nil => exact .inr (by simpa using terminated)
    | cons d more => exact .inl (Text.trimRight_cons solid (d :: more).dropLast)
  · exact .inl ⟨more, rfl⟩

/-- Trimming a text leaves what stands in front of a character that is no blank. -/
theorem trimRight_front {c : Char} (solid : isBlank c = false) (behind : Text) :
    ∃ more, Text.trimRight (c :: behind) = c :: more ∧
      ∀ front : Text, Text.trimRight (front ++ c :: behind) = front ++ c :: more := by
  obtain ⟨more, trimmed⟩ := Text.trimRight_cons solid behind
  refine ⟨more, trimmed, fun front => ?_⟩
  rw [Text.trimRight_append (by rw [trimmed]; simp), trimmed]

/-- The search reads the code, the gap and the message of a line. The three parts can be told
apart by their first characters, and the trailer is what is trimmed from the end. -/
theorem CodeAndMessage.ofText_eq {line code gap message : Text}
    (unbroken : ∀ c ∈ line, isLineBreak c = false)
    (parts : CodeAndMessage line code gap message) :
    BareLine.ofText line = ⟨line, code, gap, message⟩ := by
  obtain ⟨whole, codeSome, codeSolid, gapSome, gapBlank, messageSome, messageSolid⟩ := parts
  cases message with
  | nil => exact absurd rfl messageSome
  | cons c message =>
    have solid : isBlank c = false := by simpa using messageSolid
    -- The trimmed line is the three parts with a trailer, so the search takes it apart there.
    obtain ⟨behind, rfl⟩ : ∃ behind, line = code ++ (gap ++ c :: behind) := by
      obtain ⟨margin, same, _⟩ := Text.trimRightWhile_append isBlank line
      obtain ⟨trailer, ending, _⟩ := withoutTerminator_append (Text.trimRight line)
      change line = Text.trimRight line ++ margin at same
      rw [whole] at ending
      exact ⟨message ++ trailer ++ margin, by rw [same, ending]; simp⟩
    obtain ⟨more, trimmed, region⟩ := trimRight_front solid behind
    rw [← List.append_assoc, region] at whole
    have kept : withoutTerminator (c :: more) = c :: message := by
      rcases withoutTerminator_cons solid more with ⟨rest, left⟩ | terminator
      · rw [withoutTerminator_behind (by rw [left]; simp)] at whole
        exact List.append_cancel_left whole
      · -- A lone terminator leaves nothing of the message, which is still there.
        have all : withoutTerminator (code ++ gap ++ [';']) = Text.trimRight (code ++ gap) := by
          simp [withoutTerminator]
        rw [terminator, all] at whole
        have shorter := Text.trimRightWhile_length_le isBlank (code ++ gap)
        have lengths := congrArg List.length whole
        simp only [Text.trimRight, List.length_append, List.length_cons] at shorter lengths
        omega
    rw [BareLine.ofText_parts codeSolid gapSome gapBlank unbroken solid, trimmed, kept]

/-- Where the search reads a gap and a message, the line has these parts: each of them is made of
the characters that the reader took for it. -/
theorem codeAndMessage_ofText {line : Text} (unbroken : ∀ c ∈ line, isLineBreak c = false)
    (digit : line.head?.any isDigit = true) (gapSome : (BareLine.ofText line).gap ≠ [])
    (messageSome : (BareLine.ofText line).message ≠ []) :
    CodeAndMessage line (BareLine.ofText line).code (BareLine.ofText line).gap
      (BareLine.ofText line).message := by
  obtain ⟨code, gap, c, behind, rfl, codeSolid, some, blank, solid⟩ :=
    BareLine.exists_parts unbroken gapSome messageSome
  obtain ⟨more, trimmed, region⟩ := trimRight_front solid behind
  rw [BareLine.ofText_parts codeSolid some blank unbroken solid, trimmed] at messageSome ⊢
  refine ⟨?_, ?_, codeSolid, some, blank, messageSome, ?_⟩
  · rw [← List.append_assoc, region, withoutTerminator_behind messageSome]
  · rintro rfl
    cases gap with
    | nil => exact some rfl
    | cons d gap =>
      have isDigit : isDigit d = true := by simpa using digit
      have isBlank := blank d (by simp)
      rw [isBlank_of_isDigit isDigit] at isBlank
      cases isBlank
  · rcases withoutTerminator_cons solid more with ⟨rest, left⟩ | terminator
    · simpa [left] using solid
    · exact absurd (by rw [terminator]; rfl) messageSome

/-! ### What the search finds -/

/-- A parenthesized statement is found if its parenthesis is closed and no keyword stands inside;
the arguments are then the balanced text between the two. -/
theorem sightParenthesized_eq_found_iff {position opened : Nat} {after : position < opened}
    {inside : Text} {span : Span} :
    sightParenthesized position opened after inside = .found span ↔
      ∃ rest, inside = span.arguments ++ ')' :: rest ∧ Balanced span.arguments ∧
        hasRaise span.arguments = false ∧ span.start = position ∧
        span.stop = opened + span.arguments.length + 1 ∧ span.layout = .parenthesized := by
  constructor
  · intro found
    unfold sightParenthesized at found
    split at found
    · cases found
    · rename_i length closes
      obtain ⟨arguments, rest, rfl, rfl, balanced⟩ := closeAt?_one_eq_some_iff.mp closes
      rw [List.take_left] at found
      split at found
      · cases found
      · rename_i lacking
        cases found
        exact ⟨rest, rfl, balanced, by simpa using lacking, rfl, rfl, rfl⟩
  · obtain ⟨start, stop, arguments, layout, bounds⟩ := span
    rintro ⟨rest, rfl, balanced, lacking, begins, ends, laid⟩
    dsimp only at balanced lacking begins ends laid ⊢
    subst begins ends laid
    have closes : closeAt? 1 (arguments ++ ')' :: rest) = some arguments.length :=
      closeAt?_one_eq_some_iff.mpr ⟨arguments, rest, rfl, rfl, balanced⟩
    simp [sightParenthesized, closes, lacking]

/-- A bare statement is found if it has a gap and a message and no keyword in the message; it
takes the code, the gap and the message. -/
theorem sightBare_eq_found_iff {position start : Nat} {after : position < start} {parts : BareLine}
    {span : Span} :
    sightBare position start after parts = .found span ↔
      parts.gap ≠ [] ∧ parts.message ≠ [] ∧ hasRaise parts.message = false ∧
        span.start = position ∧
        span.stop = start + (parts.code ++ parts.gap ++ parts.message).length ∧
        span.arguments = parts.code ++ parts.gap ++ parts.message ∧
        span.layout = .bare parts.code parts.message := by
  have lengths : start + (parts.code ++ parts.gap ++ parts.message).length =
      start + parts.code.length + parts.gap.length + parts.message.length := by
    simp only [List.length_append]
    omega
  obtain ⟨first, stop, arguments, layout, bounds⟩ := span
  constructor
  · intro found
    unfold sightBare at found
    dsimp only at found
    split at found
    · cases found
    · split at found
      · cases found
      · split at found
        · cases found
        · rename_i gap message lacking
          cases found
          exact ⟨gap, message, by simpa using lacking, rfl, lengths.symm, rfl, rfl⟩
  · rintro ⟨gap, message, lacking, rfl, rfl, rfl, rfl⟩
    simp only [sightBare, if_neg gap, if_neg message, lacking, Bool.false_eq_true, if_false, lengths]

/-- An argument list is found where blanks lead to it, and nowhere else: every other way to go on
behind the keyword gives another sighting. -/
theorem sightAt_eq_parenthesized_iff {place : Nat} {after : Text} {span : Span} :
    (sightAt place after = .found span ∧ span.layout.form = .parenthesized) ↔
      ∃ blanks rest, after = blanks ++ '(' :: (span.arguments ++ ')' :: rest) ∧
        (∀ c ∈ blanks, isBlank c = true) ∧ Balanced span.arguments ∧
        hasRaise span.arguments = false ∧ span.start = place ∧
        span.stop = place + raiseWord.length + blanks.length + 1 + span.arguments.length + 1 ∧
        span.layout = .parenthesized := by
  constructor
  · rintro ⟨found, form⟩
    rcases after_cases after with ⟨blanks, inside, rfl, blank⟩ |
      ⟨margin, region, rfl, some, inline, digit⟩ | unread
    · rw [sightAt_parenthesized place blank, sightParenthesized_eq_found_iff] at found
      obtain ⟨rest, rfl, balanced, lacking, start, stop, layout⟩ := found
      exact ⟨blanks, rest, rfl, blank, balanced, lacking, start, stop, layout⟩
    · rw [sightAt_bare place some inline digit, sightBare_eq_found_iff] at found
      obtain ⟨_, _, _, _, _, _, layout⟩ := found
      rw [layout] at form
      cases form
    · rw [sightAt_unrecognized place unread] at found
      cases found
  · rintro ⟨blanks, rest, rfl, blank, balanced, lacking, start, stop, layout⟩
    rw [sightAt_parenthesized place blank, sightParenthesized_eq_found_iff]
    exact ⟨⟨rest, rfl, balanced, lacking, start, stop, layout⟩, by rw [layout]; rfl⟩

/-- A bare statement is found where a margin leads to a digit and the line has a code and
a message. -/
theorem sightAt_eq_bare_iff {place : Nat} {after : Text} {span : Span} :
    (sightAt place after = .found span ∧ span.layout.form = .bare) ↔
      ∃ margin code gap message trailer rest,
        after = margin ++ (code ++ gap ++ message ++ trailer ++ rest) ∧
        margin ≠ [] ∧ (∀ c ∈ margin, isInlineBlank c = true) ∧ code.head?.any isDigit = true ∧
        (∀ c ∈ code ++ gap ++ message ++ trailer, isLineBreak c = false) ∧ AtLineEnd rest ∧
        CodeAndMessage (code ++ gap ++ message ++ trailer) code gap message ∧
        hasRaise message = false ∧ span.start = place ∧
        span.stop = place + raiseWord.length + margin.length + (code ++ gap ++ message).length ∧
        span.arguments = code ++ gap ++ message ∧ span.layout = .bare code message := by
  constructor
  · rintro ⟨found, form⟩
    rcases after_cases after with ⟨blanks, inside, rfl, blank⟩ |
      ⟨margin, region, rfl, some, inline, digit⟩ | unread
    · rw [sightAt_parenthesized place blank, sightParenthesized_eq_found_iff] at found
      obtain ⟨_, _, _, _, _, _, layout⟩ := found
      rw [layout] at form
      cases form
    · obtain ⟨line, rest, rfl, unbroken, ends⟩ := line_split region
      have opening := head_digit_of_append digit ends
      rw [sightAt_bare place some inline digit, BareLine.ofText_append unbroken ends,
        sightBare_eq_found_iff] at found
      obtain ⟨gap, message, lacking, start, stop, arguments, layout⟩ := found
      have parts := codeAndMessage_ofText unbroken opening gap message
      obtain ⟨trailer, whole, _⟩ := BareLine.parts_append unbroken
      refine ⟨margin, _, _, _, trailer, rest, by rw [← whole], some, inline, ?_,
        whole ▸ unbroken, ends, by rwa [← whole], lacking, start, stop, arguments, layout⟩
      obtain ⟨d, code, same⟩ := List.exists_cons_of_ne_nil parts.codeSome
      rw [whole, same] at opening
      simpa [same] using opening
    · rw [sightAt_unrecognized place unread] at found
      cases found
  · rintro ⟨margin, code, gap, message, trailer, rest, rfl, some, inline, digit, unbroken, ends,
      parts, lacking, start, stop, arguments, layout⟩
    have begins : (code ++ gap ++ message ++ trailer ++ rest).head?.any isDigit = true := by
      cases code with
      | nil => exact absurd rfl parts.codeSome
      | cons d code => simpa using digit
    rw [sightAt_bare place some inline begins, BareLine.ofText_append unbroken ends,
      sightBare_eq_found_iff, parts.ofText_eq unbroken]
    exact ⟨⟨parts.gapSome, parts.messageSome, lacking, start, stop, arguments, layout⟩,
      by rw [layout]; rfl⟩

/-- The description of a parenthesized statement and the sight of one agree: each part of the
description is the part of the text on which the sight decides. -/
theorem parenthesizedAt_iff {text : Text} {place : Nat} {span : Span}
    (stands : KeywordAt text place) :
    ParenthesizedAt text place span ↔
      sightAt place (text.drop (place + raiseWord.length)) = .found span ∧
        span.layout.form = .parenthesized := by
  rw [sightAt_eq_parenthesized_iff]
  constructor
  · rintro ⟨front, word, blanks, rest, ⟨rfl, starts, stops⟩, rfl, spelled, blank, balanced, lacking,
      layout⟩
    have after : (front ++ (word ++ blanks ++ '(' :: span.arguments ++ [')']) ++ rest).drop
        (front.length + raiseWord.length) = blanks ++ '(' :: (span.arguments ++ ')' :: rest) := by
      rw [← spelled.length_eq, ← List.length_append]
      simp [List.drop_append]
    refine ⟨blanks, rest, after, blank, balanced, hasRaise_eq_false_iff_keywordAt.mpr lacking, starts,
      ?_, layout⟩
    simp only [stops, List.length_append, List.length_cons, List.length_nil, spelled.length_eq]
    omega
  · rintro ⟨blanks, rest, same, blank, balanced, lacking, starts, stops, layout⟩
    obtain ⟨front, word, after, rfl, rfl, spelled, _, _⟩ := stands
    rw [← spelled.length_eq, ← List.length_append, List.drop_left] at same
    subst same
    refine ⟨front, word, blanks, rest, ⟨by simp, starts, ?_⟩, rfl, spelled, blank, balanced,
      hasRaise_eq_false_iff_keywordAt.mp lacking, layout⟩
    simp only [stops, List.length_append, List.length_cons, List.length_nil, spelled.length_eq]
    omega

/-- The description of a bare statement and the sight of one agree, part by part. The one counts
from the beginning of the text and the other from behind the keyword, so the offsets are carried
over. -/
theorem bareAt_iff {text : Text} {place : Nat} {span : Span} (stands : KeywordAt text place) :
    BareAt text place span ↔
      sightAt place (text.drop (place + raiseWord.length)) = .found span ∧
        span.layout.form = .bare := by
  rw [sightAt_eq_bare_iff]
  constructor
  · rintro ⟨front, word, margin, code, gap, message, trailer, rest, ⟨rfl, starts, stops⟩, rfl, spelled,
      _, some, inline, digit, unbroken, ends, parts, lacking, arguments, layout⟩
    have after : (front ++ (word ++ margin ++ (code ++ gap ++ message)) ++ (trailer ++ rest)).drop
        (front.length + raiseWord.length) = margin ++ (code ++ gap ++ message ++ trailer ++ rest) := by
      rw [← spelled.length_eq, ← List.length_append]
      simp [List.drop_append]
    refine ⟨margin, code, gap, message, trailer, rest, after, some, inline, digit, unbroken, ends, parts,
      hasRaise_eq_false_iff_keywordAt.mpr lacking, starts, ?_, arguments, layout⟩
    simp only [stops, List.length_append, spelled.length_eq]
    omega
  · rintro ⟨margin, code, gap, message, trailer, rest, same, some, inline, digit, unbroken, ends, parts,
      lacking, starts, stops, arguments, layout⟩
    obtain ⟨front, word, after, rfl, rfl, spelled, _, _⟩ := stands
    rw [← spelled.length_eq, ← List.length_append, List.drop_left] at same
    subst same
    refine ⟨front, word, margin, code, gap, message, trailer, rest, ⟨by simp, starts, ?_⟩, rfl, spelled,
      ?_, some, inline, digit, unbroken, ends, parts, hasRaise_eq_false_iff_keywordAt.mp lacking,
      arguments, layout⟩
    · simp only [stops, List.length_append, spelled.length_eq]
      omega
    · -- The digit behind the margin leaves no room for an argument list.
      obtain ⟨d, more, rfl⟩ := List.exists_cons_of_ne_nil parts.codeSome
      have isDigit : isDigit d = true := by simpa using digit
      have solid : ∀ c ∈ (d :: more ++ gap ++ message ++ trailer ++ rest).head?, isBlank c = false := by
        simpa using isBlank_of_isDigit isDigit
      rw [dropWhile_append_stop (fun c member => isBlank_of_isInlineBlank (inline c member)) solid]
      intro opening
      obtain rfl : d = '(' := by simpa using opening
      exact absurd isDigit (by decide)

/-- The search from an offset inside the text sees what is behind it. -/
theorem locate_eq {text : Text} {offset : Nat} (inside : offset ≤ text.length) :
    locate text offset =
      (sight (text.take offset).getLast? (text.drop offset)).shift offset := by
  simp [locate, Nat.min_eq_left inside]

/-- From an offset on there is no keyword, or what follows the first one decides. The search for
the keyword cuts the text in front of it, where there is no other. -/
theorem locate_cases (text : Text) (offset : Nat) :
    (locate text offset = .absent ∧ ∀ place, offset ≤ place → ¬KeywordAt text place) ∨
      ∃ place, FirstKeyword text offset place ∧
        locate text offset = sightAt place (text.drop (place + raiseWord.length)) := by
  by_cases inside : offset ≤ text.length
  · have whole := List.take_append_drop offset text
    have length : (text.take offset).length = offset := List.length_take_of_le inside
    rw [locate_eq inside]
    generalize text.take offset = lead at whole length ⊢
    generalize text.drop offset = tail at whole ⊢
    subst whole length
    rcases lacks_or_occurs lead.getLast? tail with lacking | ⟨front, word, after, rfl, occurs⟩
    · rw [sight_of_lacks lacking]
      exact .inl ⟨rfl, lacks_iff_forall_keywordAt.mp lacking⟩
    · refine .inr ⟨_, occurs.firstKeyword, ?_⟩
      have behind : (lead ++ (front ++ word ++ after)).drop
          (lead.length + front.length + raiseWord.length) = after := by
        rw [← occurs.spelled.length_eq, ← List.length_append, ← List.length_append, ← List.append_assoc,
          ← List.append_assoc, List.drop_left]
      rw [occurs.sight_eq, ← sightAt_shift, behind]
  · have behind : text.drop text.length = [] := List.drop_length
    refine .inl ⟨?_, ?_⟩
    · simp [locate, Nat.min_eq_right (Nat.le_of_not_le inside), sight, firstRaise?, Sighting.shift]
    · rintro place reached ⟨front, word, after, rfl, rfl, _⟩
      simp only [List.length_append] at inside
      omega

/-- Whatever is made of a keyword begins with it, an occurrence as well as a skip. That nothing is
made of it is not possible. -/
theorem sightAt_begins (place : Nat) (after : Text) :
    (∃ span, sightAt place after = .found span ∧ span.start = place) ∨
      ∃ skip, sightAt place after = .skipped skip ∧ skip.position = place := by
  have begun := sightAt_start? place after
  cases seen : sightAt place after with
  | found span => exact .inl ⟨span, rfl, by simpa [seen, Sighting.start?] using begun⟩
  | skipped skip => exact .inr ⟨skip, rfl, by simpa [seen, Sighting.start?] using begun⟩
  | absent => simp [seen, Sighting.start?] at begun

/-- The search from an offset comes to nothing exactly if no keyword stands at or behind
it. Otherwise its result is about the first such keyword: it finds an argument list
exactly where one matches its first parenthesis and holds no keyword, and a bare
statement exactly where the line has a code and a message without keywords; in all other
cases it skips. -/
theorem locate_recognises (text : Text) (offset : Nat) :
    (locate text offset = .absent ↔ ∀ place, offset ≤ place → ¬KeywordAt text place) ∧
      (locate text offset = .absent ∨ ∃ place, FirstKeyword text offset place ∧
        ((∃ span, locate text offset = .found span ∧ span.start = place) ∨
          ∃ skip, locate text offset = .skipped skip ∧ skip.position = place) ∧
        ∀ span,
          (locate text offset = .found span ∧ span.layout.form = .parenthesized ↔
            ParenthesizedAt text place span) ∧
          (locate text offset = .found span ∧ span.layout.form = .bare ↔ BareAt text place span)) := by
  rcases locate_cases text offset with ⟨nothing, absent⟩ | ⟨place, first, same⟩
  · exact ⟨⟨fun _ => absent, fun _ => nothing⟩, .inl nothing⟩
  · have begins := sightAt_begins place (text.drop (place + raiseWord.length))
    rw [← same] at begins
    refine ⟨⟨?_, fun absent => absurd first.stands (absent place first.reached)⟩, .inr ?_⟩
    · intro nothing
      rw [nothing] at begins
      rcases begins with ⟨span, found, _⟩ | ⟨skip, skipped, _⟩
      · cases found
      · cases skipped
    · refine ⟨place, first, begins, fun span => ⟨?_, ?_⟩⟩
      · rw [same, parenthesizedAt_iff first.stands]
      · rw [same, bareAt_iff first.stands]

end SqlRenewal
