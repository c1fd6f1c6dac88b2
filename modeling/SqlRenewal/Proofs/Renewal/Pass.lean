import SqlRenewal.Proofs.Raise.Decision
import SqlRenewal.Proofs.Raise.Statement

/-!
# The statement pass as a relation

`Pass` relates a text to the text that the statement pass makes of it, occurrence
by occurrence: an occurrence stays with all that was read of it, or a statement
makes way for its modern form. What a pass cannot bring about follows by
induction: it closes no parenthesis that was open, joins nothing to a word, and
every replacement takes a keyword away.
-/
namespace SqlRenewal

/-! ### One step of the pass -/

/-- What is sighted does not depend on where the text is placed, apart from the positions that it
names. -/
theorem sightAt_shift (offset position : Nat) (after : Text) :
    sightAt (offset + position) after = (sightAt position after).shift offset := by
  unfold sightAt sightParenthesized sightBare
  dsimp only
  split
  · split
    · simp [Sighting.shift, Skip.shift, Nat.add_assoc]
    · split <;> simp [Sighting.shift, Skip.shift, Span.shift, Nat.add_assoc]
  · split
    · split
      · simp [Sighting.shift, Skip.shift, Nat.add_assoc]
      · split
        · simp [Sighting.shift, Skip.shift, Nat.add_assoc]
        · split <;> simp [Sighting.shift, Skip.shift, Span.shift, Nat.add_assoc]
    · simp [Sighting.shift, Skip.shift, Nat.add_assoc]

/-- The search passes over a part that lacks the keyword. It finds the same occurrence as on the
rest alone, and all offsets are moved by the length of the part. -/
theorem sight_append {before : Option Char} {front rest : Text}
    (lacking : Lacks raiseWord before front rest) :
    sight before (front ++ rest) = (sight (lastOf before front) rest).shift front.length := by
  rw [sight, sight, firstRaise?_append lacking]
  cases firstRaise? (lastOf before front) rest with
  | none => rfl
  | some position =>
    have dropped : (front ++ rest).drop (position + front.length + raiseWord.length) =
        rest.drop (position + raiseWord.length) := by
      rw [show position + front.length + raiseWord.length =
        front.length + (position + raiseWord.length) by omega, List.drop_append]
      simp
    simp only [Option.map_some, dropped]
    rw [Nat.add_comm position, sightAt_shift]

/-- Without a keyword the rest of the text is kept, and no edit is made. -/
theorem reviseFrom_done {before : Option Char} {text : Text}
    (lacking : Lacks raiseWord before text []) (position : Nat) :
    reviseFrom before position text = ⟨text, []⟩ := by
  have decided : settle (sight before text) = .done := by rw [sight_of_lacks lacking, settle]
  rw [reviseFrom]
  split <;> simp_all

/-- A statement that is left alone is kept up to where the scan goes on, and noted. -/
theorem reviseFrom_leave {before : Option Char} {text : Text} {skip : Skip}
    (decided : settle (sight before text) = .leave skip) (position : Nat) :
    reviseFrom before position text =
      (reviseFrom (lastOf before (text.take skip.resume)) (position + skip.resume)
        (text.drop skip.resume)).precede (text.take skip.resume) (.skipped (skip.shift position)) := by
  rw [reviseFrom]
  split <;> simp_all

/-- A statement that is replaced gives way to its rendering, and the scan goes on behind it. -/
theorem reviseFrom_replace {before : Option Char} {text : Text} {span : Span} {reading : Reading}
    (decided : settle (sight before text) = .replace span reading) (position : Nat) :
    reviseFrom before position text =
      (reviseFrom (lastOf before reading.render) (position + span.start + reading.render.length)
        (text.drop span.stop)).precede (text.take span.start ++ reading.render)
        (.replaced
          { position := position + span.start
            form := span.layout.form
            before := (text.take span.stop).drop span.start
            after := reading.render
            code := reading.code
            severity := reading.severity
            flags := readingFlags span reading (text.drop span.stop) }) := by
  rw [reviseFrom]
  split <;> simp_all

/-- The decision seen from a place that many characters further back. -/
def Decision.shift (offset : Nat) : Decision → Decision
  | .done => .done
  | .leave skip => .leave (skip.shift offset)
  | .replace span reading => .replace (span.shift offset) reading

/-- What is decided about a sighting does not depend on where the text is placed. -/
theorem settle_shift (offset : Nat) (sighting : Sighting) :
    settle (sighting.shift offset) = (settle sighting).shift offset := by
  cases sighting with
  | absent => rfl
  | skipped skip => rfl
  | found span =>
    have same : readSpan (span.shift offset) = readSpan span := rfl
    simp only [Sighting.shift, settle, same]
    cases readSpan span <;> rfl

/-- The pass goes over a part that lacks the keyword and leaves it as it is: the search finds the
same occurrence with the part in front and without it. -/
theorem reviseFrom_append {before : Option Char} {front rest : Text}
    (lacking : Lacks raiseWord before front rest) (position : Nat) :
    reviseFrom before position (front ++ rest) =
      ⟨front ++ (reviseFrom (lastOf before front) (position + front.length) rest).text,
        (reviseFrom (lastOf before front) (position + front.length) rest).edits⟩ := by
  have shifted : settle (sight before (front ++ rest)) =
      (settle (sight (lastOf before front) rest)).shift front.length := by
    rw [sight_append lacking, settle_shift]
  cases decided : settle (sight (lastOf before front) rest) with
  | done =>
    rw [decided] at shifted
    rw [reviseFrom, reviseFrom]
    split <;> split <;> simp_all [Decision.shift]
  | leave skip =>
    rw [decided] at shifted
    rw [reviseFrom_leave shifted, reviseFrom_leave decided]
    simp [Skip.shift, Revision.precede, List.take_length_add_append, List.drop_length_add_append,
      lastOf_append, Nat.add_assoc]
  | replace span reading =>
    rw [decided] at shifted
    have same : lastOf before reading.render = lastOf (lastOf before front) reading.render :=
      lastOf_of_ne_nil (by simp [Reading.render]) _ _
    have flags (tail : Text) : readingFlags (span.shift front.length) reading tail =
        readingFlags span reading tail := rfl
    rw [reviseFrom_replace shifted, reviseFrom_replace decided, same, flags]
    simp [Span.shift, Revision.precede, List.take_length_add_append, List.drop_length_add_append,
      Nat.add_assoc]

/-- An occurrence that stays is kept, and the pass goes on behind it. The decision ends at the
last character that belongs to the occurrence, and blanks behind it hold no keyword. -/
theorem reviseFrom_left {before : Option Char} {kept rest : Text} (leaves : Leaves before kept rest)
    (position : Nat) :
    ∃ skip, reviseFrom before position (kept ++ rest) =
      (reviseFrom (lastOf before kept) (position + kept.length) rest).precede kept
        (.skipped skip) := by
  obtain ⟨skip, front, trailer, decided, rfl, resume, trailing⟩ := leaves.settled
  have noOpening : ∀ c ∈ trailer, writes 'R' c = false :=
    fun c member => (trailer_outside_words (trailing c member)).2
  have lacking : Lacks raiseWord (lastOf before front) trailer rest := lacks_of_no_opening noOpening _ _
  refine ⟨skip.shift position, ?_⟩
  rw [reviseFrom_leave decided, resume, List.append_assoc, List.take_left, List.drop_left,
    reviseFrom_append lacking]
  simp [Revision.precede, lastOf_append, Nat.add_assoc]

/-- A statement that is replaced makes way for its modern form, and the pass goes on
behind it. -/
theorem reviseFrom_replaced {before : Option Char} {span : Span} {reading : Reading}
    {front statement rest : Text}
    (decided : settle (sight before (front ++ statement ++ rest)) = .replace span reading)
    (replaces : Replaces before span reading front statement rest) (position : Nat) :
    reviseFrom before position (front ++ statement ++ rest) =
      (reviseFrom (lastOf before reading.render) (position + front.length + reading.render.length)
        rest).precede (front ++ reading.render)
        (.replaced
          { position := position + front.length
            form := span.layout.form
            before := statement
            after := reading.render
            code := reading.code
            severity := reading.severity
            flags := readingFlags span reading rest }) := by
  have behind : (front ++ statement ++ rest).drop span.stop = rest := by
    rw [replaces.stops, ← List.length_append, List.drop_left]
  have taken : (front ++ statement ++ rest).take span.stop = front ++ statement := by
    rw [replaces.stops, ← List.length_append, List.take_left]
  have inFront : (front ++ statement ++ rest).take span.start = front := by
    rw [replaces.starts, List.append_assoc, List.take_left]
  rw [reviseFrom_replace decided, behind, taken, inFront, replaces.starts, List.drop_left]

/-! ### The relation -/

/-- The pass makes the second text of the first. -/
inductive Pass : Option Char → Text → Text → Prop where
  | absent {before : Option Char} {text : Text} (lacking : Lacks raiseWord before text []) :
      Pass before text text
  | left {before : Option Char} {kept rest rest' : Text} (leaves : Leaves before kept rest)
      (later : Pass (lastOf before kept) rest rest') : Pass before (kept ++ rest) (kept ++ rest')
  | replaced {before : Option Char} {layout : Layout} {arguments front statement rest rest' : Text}
      {reading : Reading} (lacking : Lacks raiseWord before front (statement ++ rest))
      (opened : endsWord (lastOf before front) = true)
      (stated : Statement layout arguments statement reading)
      (later : Pass (lastOf before reading.render) rest rest') :
      Pass before (front ++ statement ++ rest) (front ++ reading.render ++ rest')

/-- Something is left with every skip, so the scan always goes on. In each case the keyword or an
opening parenthesis is part of what is left. -/
theorem Leaves.ne_nil {before : Option Char} {kept rest : Text} (leaves : Leaves before kept rest) :
    kept ≠ [] := by
  have written {front word after : Text} (occurs : Occurs before front word after) : word ≠ [] :=
    occurs.spelled.ne_nil (by decide)
  cases leaves with
  | unrecognized occurs => simp [written occurs]
  | unclosed occurs => simp
  | arguments occurs => simp
  | line occurs => simp [written occurs]

/-- A statement is not empty: it holds its keyword. -/
theorem Statement.ne_nil {layout : Layout} {arguments statement : Text} {reading : Reading}
    (stated : Statement layout arguments statement reading) : statement ≠ [] := by
  cases stated with
  | parenthesized spelled => simp
  | bare spelled => simp [spelled.ne_nil (by decide)]

/-- The pass is what the relation describes, step by step: what it decides about the next
occurrence is one of the cases of the relation. -/
theorem reviseFrom_pass (before : Option Char) (position : Nat) (text : Text) :
    Pass before text (reviseFrom before position text).text := by
  -- Strong induction on the length: the pass goes on with a shorter text.
  induction size : text.length using Nat.strongRecOn generalizing before position text with
  | ind n inductionHypothesis =>
    rcases settle_cases before text with lacking | ⟨kept, rest, rfl, leaves⟩ |
      ⟨span, reading, front, statement, rest, decided, rfl, replaces⟩
    · rw [reviseFrom_done lacking]
      exact .absent lacking
    · obtain ⟨skip, same⟩ := reviseFrom_left leaves position
      have shorter : rest.length < n := by
        have := List.length_pos_iff.mpr leaves.ne_nil
        simp only [List.length_append] at size
        omega
      rw [same]
      exact .left leaves (inductionHypothesis _ shorter _ _ _ rfl)
    · have shorter : rest.length < n := by
        have := List.length_pos_iff.mpr replaces.stated.ne_nil
        simp only [List.length_append] at size
        omega
      rw [reviseFrom_replaced decided replaces]
      exact .replaced replaces.lacking replaces.opened replaces.stated
        (inductionHypothesis _ shorter _ _ _ rfl)

/-! ### What a pass cannot bring about -/

/-- A statement begins with the keyword as a word of its own, whichever of the two layouts it
has. -/
theorem Statement.keyword {layout : Layout} {arguments statement : Text} {reading : Reading}
    (stated : Statement layout arguments statement reading) :
    ∃ word c behind, statement = word ++ c :: behind ∧ Spells raiseWord word ∧
      endsWord (some c) = true := by
  have blankEnds {c : Char} (blank : isBlank c = true) : endsWord (some c) = true := by
    simp [endsWord, isWordChar_of_isBlank blank]
  cases stated with
  | @parenthesized word blanks arguments reading spelled blank =>
    cases blanks with
    | nil => exact ⟨word, '(', arguments ++ [')'], by simp, spelled, by decide⟩
    | cons c blanks =>
      exact ⟨word, c, blanks ++ '(' :: arguments ++ [')'], by simp, spelled,
        blankEnds (blank c (by simp))⟩
  | @bare word margin code gap message reading spelled some inline =>
    cases margin with
    | nil => exact absurd rfl some
    | cons c margin =>
      exact ⟨word, c, margin ++ (code ++ gap ++ message), by simp, spelled,
        blankEnds (isBlank_of_isInlineBlank (inline c (by simp)))⟩

/-- A statement is one keyword and what is behind it, so without it there is at least one keyword
less. -/
theorem Statement.countRaises_lt {layout : Layout} {arguments statement : Text} {reading : Reading}
    (stated : Statement layout arguments statement reading) {before : Option Char}
    (opened : endsWord before = true) (rest : Text) :
    countRaises (lastOf before statement) rest < countRaises before (statement ++ rest) := by
  obtain ⟨word, d, behind, same, spelled, closed⟩ := stated.keyword
  have starts : startsRaise before (statement ++ rest) = true := by
    refine startsWord_iff.mpr ⟨opened, word, d :: behind ++ rest, by simp [same], spelled, ?_⟩
    simpa using closed
  cases statement with
  | nil => exact absurd rfl stated.ne_nil
  | cons c more =>
    have fewer := countRaises_le_append (some c) more rest
    rw [List.cons_append] at starts
    rw [lastOf_cons, List.cons_append, countRaises, if_pos starts]
    omega

/-- Texts before and after a pass agree up to a letter that became a terminator: the first letter
of the first statement that was replaced. The induction is on the pass. -/
theorem Pass.diverges {before : Option Char} {text text' : Text} (pass : Pass before text text') :
    text = text' ∨ ∃ front c rest rest', text = front ++ c :: rest ∧
      text' = front ++ ';' :: rest' ∧ c ∈ letterForms := by
  induction pass with
  | absent => exact .inl rfl
  | @left before kept rest rest' leaves later inductionHypothesis =>
    rcases inductionHypothesis with rfl | ⟨front, c, behind, behind', rfl, rfl, letter⟩
    · exact .inl rfl
    · exact .inr ⟨kept ++ front, c, behind, behind', by simp, by simp, letter⟩
  | @replaced before layout arguments front statement rest rest' reading lacking opened stated later =>
    obtain ⟨word, d, behind, rfl, spelled, _⟩ := stated.keyword
    cases word with
    | nil => exact absurd rfl (spelled.ne_nil (by decide))
    | cons c word =>
      exact .inr ⟨front, c, word ++ d :: behind ++ rest, reading.render.tail ++ rest', by simp,
        by simp [Reading.render], spelled.letters raiseWord_known c (by simp)⟩

/-- A pass leaves texts akin, since it changes the head of a line only if a statement begins
there. -/
theorem Pass.akin {before : Option Char} {text text' : Text} (pass : Pass before text text') :
    Akin text text' := by
  have letterSolid : ∀ c ∈ letterForms, isSolid c = true := by decide
  rcases pass.diverges with same | ⟨front, c, rest, rest', same, same', letter⟩
  · exact .inl same
  · exact .inr ⟨front, c, ';', rest, rest', same, same', letterSolid c letter, by decide⟩

/-- Where no word went on at the start of a text, none does after a pass. -/
theorem Pass.endsWord_head {before : Option Char} {text text' : Text}
    (pass : Pass before text text') (closed : endsWord text.head? = true) :
    endsWord text'.head? = true := by
  rcases pass.diverges with rfl | ⟨front, c, rest, rest', rfl, rfl, letter⟩
  · exact closed
  · cases front with
    | nil => rfl
    | cons d front => simpa using closed

/-- A text that begins at the end of a line still does after a pass, because statements do not
begin with a line break. -/
theorem Pass.atLineEnd {before : Option Char} {text text' : Text} (pass : Pass before text text')
    (ends : AtLineEnd text) : AtLineEnd text' := by
  rcases pass.diverges with rfl | ⟨front, c, rest, rest', rfl, rfl, letter⟩
  · exact ends
  · cases front with
    | nil =>
      have unbroken : ∀ c ∈ letterForms, isLineBreak c = false := by decide
      rcases ends with none | ⟨d, more, same, broken⟩
      · simp at none
      · cases same
        rw [unbroken c letter] at broken
        cases broken
    | cons d front =>
      rcases ends with none | ⟨e, more, same, broken⟩
      · simp at none
      · cases same
        exact .inr ⟨d, front ++ ';' :: rest', rfl, broken⟩

/-- What was open before the pass is open after it. A statement and its rendering come back to the
depth at which they begin, and neither goes below; the induction is on the pass. -/
theorem Pass.staysAbove {before : Option Char} {text text' : Text} (pass : Pass before text text')
    {depth : Int} (above : StaysAbove depth text) : StaysAbove depth text' := by
  induction pass generalizing depth with
  | absent => exact above
  | left leaves later inductionHypothesis =>
    rw [staysAbove_append] at above ⊢
    exact ⟨above.1, inductionHypothesis above.2⟩
  | replaced lacking opened stated later inductionHypothesis =>
    rw [List.append_assoc, staysAbove_append, staysAbove_append] at above ⊢
    obtain ⟨inFront, inside, behind⟩ := above
    obtain ⟨level, stays⟩ := stated.parentheses
    refine ⟨inFront, stays _ (inFront _ (List.prefix_refl _)) inside, ?_⟩
    rw [level]
    exact inductionHypothesis behind

/-- What follows an occurrence that stays does not join it: it ends in a parenthesis, or no word
goes on behind it. -/
theorem Leaves.seam {before : Option Char} {kept rest : Text} (leaves : Leaves before kept rest) :
    Seam before kept rest := by
  cases leaves with
  | unrecognized occurs unread => exact .inr occurs.closed
  | unclosed occurs blank open' =>
    refine .inl ?_
    rw [lastOf_append]
    rfl
  | arguments occurs blank balanced unread =>
    refine .inl ?_
    rw [lastOf_append]
    rfl
  | line occurs some inline digit unbroken ends unread => exact .inr ends.endsWord_head

/-- What follows an occurrence that stays may go through a pass. The pass keeps what the
occurrence depends on: the end of the word or of the line, what is not recognised, and what is not
closed. -/
theorem Leaves.change {before : Option Char} {kept rest rest' : Text}
    (leaves : Leaves before kept rest) (pass : Pass (lastOf before kept) rest rest') :
    Leaves before kept rest' := by
  cases leaves with
  | unrecognized occurs unread =>
    exact .unrecognized (occurs.change (pass.endsWord_head occurs.closed)) (unread.akin pass.akin)
  | unclosed occurs blank open' =>
    refine .unclosed (occurs.change ?_) blank (pass.staysAbove open')
    simpa using occurs.closed
  | arguments occurs blank balanced unread =>
    refine .arguments (occurs.change ?_) blank balanced unread
    simpa using occurs.closed
  | line occurs some inline digit unbroken ends unread =>
    refine .line (occurs.change ?_) some inline digit unbroken (pass.atLineEnd ends) unread
    have closed := occurs.closed
    rw [List.head?_append, List.head?_eq_some_head some] at closed ⊢
    exact closed

/-- A pass brings no keyword into a text, and every replacement takes one away: a modern statement
has none, and what is left alone keeps its own. The induction is on the pass. -/
theorem Pass.countRaises_le {before : Option Char} {text text' : Text}
    (pass : Pass before text text') :
    countRaises before text' ≤ countRaises before text ∧
      (countRaises before text' = countRaises before text → text' = text) := by
  induction pass with
  | absent => simp
  | left leaves later inductionHypothesis =>
    rw [countRaises_append leaves.seam, countRaises_append (leaves.change later).seam]
    obtain ⟨fewer, unchanged⟩ := inductionHypothesis
    refine ⟨by omega, fun equal => ?_⟩
    rw [unchanged (by omega)]
  | @replaced before layout arguments front statement rest rest' reading lacking opened stated later
      inductionHypothesis =>
    have written : Lacks raiseWord before (front ++ reading.render) rest' := by
      rw [lacks_append]
      exact ⟨lacks_change_rest raiseWord_known lacking opened _,
        Reading.lacks_render stated.message_lacks _ _⟩
    have after : countRaises before (front ++ reading.render ++ rest') =
        countRaises (lastOf before reading.render) rest' := by
      rw [countRaises_append_of_lacks written, lastOf_append,
        lastOf_of_ne_nil (by simp [Reading.render]) _ before]
    have start := stated.countRaises_lt opened rest
    rw [lastOf_of_ne_nil stated.ne_nil _ before] at start
    have inside : endsWord (lastOf before reading.render) = false := reading.endsWord_render before
    have fewer : countRaises (lastOf before reading.render) rest ≤
        countRaises (lastOf before statement) rest :=
      countRaises_mono (by simp [inside]) rest
    rw [after, List.append_assoc, countRaises_append_of_lacks lacking]
    exact ⟨by omega, by omega⟩

end SqlRenewal
