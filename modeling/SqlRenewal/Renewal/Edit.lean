import SqlRenewal.Renewal.Flag
import SqlRenewal.Raise.Locate

/-!
# Edits of the statement pass

The statement pass goes through a text once, from left to right. Each legacy
statement it meets is replaced by the modern one or skipped, and the pass goes on
behind what it wrote or left. The next keyword is judged by the last character
written, so a replacement is part of the text that the pass sees.

Every edit records where it stands in the text that the pass returns.
-/
namespace SqlRenewal

/-- A legacy statement that the pass replaced. -/
structure Replacement where
  position : Nat
  form : Form
  before : Text
  after : Text
  code : Int
  severity : Option Text
  flags : List Flag
deriving DecidableEq, Repr

/-- What the pass did with one occurrence of the keyword. -/
inductive Edit where
  | replaced (replacement : Replacement)
  | skipped (skip : Skip)
deriving DecidableEq, Repr

/-- The flags that an edit raises. -/
def Edit.flags : Edit → List Flag
  | .replaced replacement => replacement.flags
  | .skipped skip => [.leftUnchanged skip.position skip.reason]

/-- The text after the pass, and the edits in their order. -/
structure Revision where
  text : Text
  edits : List Edit
deriving DecidableEq, Repr

/-- The revision with an edit and its text in front. -/
def Revision.precede (text : Text) (edit : Edit) (later : Revision) : Revision :=
  ⟨text ++ later.text, edit :: later.edits⟩

/-- The last character before the place where the pass goes on. -/
def lastOf (before : Option Char) (text : Text) : Option Char :=
  text.getLast?.or before

/-- What becomes of the next occurrence: nothing is left, it stays, or it is
replaced. -/
inductive Decision where
  | done
  | leave (skip : Skip)
  | replace (span : Span) (reading : Reading)
deriving DecidableEq, Repr

/-- A statement that was found stays if its arguments have no reading. -/
def settle : Sighting → Decision
  | .absent => .done
  | .skipped skip => .leave skip
  | .found span =>
    match readSpan span with
    | .error reason => .leave ⟨span.start, span.stop, reason, span.start_lt_stop⟩
    | .ok reading => .replace span reading

/-- An occurrence that stays ends inside the text. -/
theorem settle_leave_le {before : Option Char} {text : Text} {skip : Skip}
    (settled : settle (sight before text) = .leave skip) : skip.resume ≤ text.length := by
  have bound := Sighting.stop_le before text
  cases seen : sight before text with
  | absent => simp [seen, settle] at settled
  | skipped other =>
    simp only [seen, settle, Decision.leave.injEq] at settled
    simpa [seen, Sighting.stop, settled] using bound
  | found span =>
    simp only [seen, settle] at settled
    split at settled
    · cases settled
      simpa [seen, Sighting.stop] using bound
    · simp at settled

/-- A statement that is replaced ends inside the text. -/
theorem settle_replace_le {before : Option Char} {text : Text} {span : Span} {reading : Reading}
    (settled : settle (sight before text) = .replace span reading) : span.stop ≤ text.length := by
  have bound := Sighting.stop_le before text
  cases seen : sight before text with
  | absent => simp [seen, settle] at settled
  | skipped other => simp [seen, settle] at settled
  | found other =>
    simp only [seen, settle] at settled
    split at settled
    · simp at settled
    · cases settled
      simpa [seen, Sighting.stop] using bound

/-- The pass over a text that follows the character `before`, where `position`
characters have been written already. -/
def reviseFrom (before : Option Char) (position : Nat) (text : Text) : Revision :=
  match decided : settle (sight before text) with
  | .done => ⟨text, []⟩
  | .leave skip =>
    have := settle_leave_le decided
    have := skip.position_lt_resume
    let kept := text.take skip.resume
    (reviseFrom (lastOf before kept) (position + skip.resume) (text.drop skip.resume)).precede
      kept (.skipped (skip.shift position))
  | .replace span reading =>
    have := settle_replace_le decided
    have := span.start_lt_stop
    let start := text.take span.start
    let tail := text.drop span.stop
    let written := reading.render
    (reviseFrom (lastOf before written) (position + span.start + written.length) tail).precede
      (start ++ written)
      (.replaced
        { position := position + span.start
          form := span.layout.form
          before := (text.take span.stop).drop span.start
          after := written
          code := reading.code
          severity := reading.severity
          flags := readingFlags span reading tail })
termination_by text.length
decreasing_by all_goals simp only [List.length_drop]; omega

/-- The statement pass over a whole text. -/
def revise (text : Text) : Revision :=
  reviseFrom none 0 text

end SqlRenewal
