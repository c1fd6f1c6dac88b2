import SqlRenewal.Raise.Reason

/-!
# Where a statement stands

A span bounds one legacy statement inside a text; a skip bounds an occurrence
that could not be read. Both cover at least one character, which is what lets a
reader move on after either of them.
-/
namespace SqlRenewal

/-- The two shapes of a legacy statement. -/
inductive Form where
  | parenthesized
  | bare
deriving DecidableEq, Repr

/-- The name of a shape in reports. -/
def Form.name : Form → String
  | .parenthesized => "parenthesized"
  | .bare => "bare"

/-- How a legacy statement lays out its arguments. The bare shape has an error
code and a message, already taken apart. -/
inductive Layout where
  | parenthesized
  | bare (code message : Text)
deriving DecidableEq, Repr

/-- The shape of a layout. -/
def Layout.form : Layout → Form
  | .parenthesized => .parenthesized
  | .bare _ _ => .bare

/-- The parts of a layout that were taken apart: none, or code and message. -/
def Layout.tokens : Layout → List Text
  | .parenthesized => []
  | .bare code message => [code, message]

/-- A legacy statement from `start` up to but not including `stop`, with the
text of its arguments as written. -/
structure Span where
  start : Nat
  stop : Nat
  arguments : Text
  layout : Layout
  start_lt_stop : start < stop
deriving DecidableEq, Repr

/-- An occurrence of the keyword at `position` that is left alone; reading goes
on at `resume`. -/
structure Skip where
  position : Nat
  resume : Nat
  reason : Reason
  position_lt_resume : position < resume
deriving DecidableEq, Repr

/-- What a search for the next legacy statement comes to. -/
inductive Sighting where
  | found (span : Span)
  | skipped (skip : Skip)
  | absent
deriving DecidableEq, Repr

/-- The span seen from a place that many characters further back. -/
def Span.shift (offset : Nat) (span : Span) : Span :=
  { span with
    start := offset + span.start
    stop := offset + span.stop
    start_lt_stop := Nat.add_lt_add_left span.start_lt_stop offset }

/-- The skip seen from a place that many characters further back. -/
def Skip.shift (offset : Nat) (skip : Skip) : Skip :=
  { skip with
    position := offset + skip.position
    resume := offset + skip.resume
    position_lt_resume := Nat.add_lt_add_left skip.position_lt_resume offset }

/-- The sighting seen from a place that many characters further back. -/
def Sighting.shift (offset : Nat) : Sighting → Sighting
  | .found span => .found (span.shift offset)
  | .skipped skip => .skipped (skip.shift offset)
  | .absent => .absent

/-- Why given bounds are not those of a statement or of a skip. -/
inductive BoundsFault where
  | negativeStart (start : Int)
  | emptySpan (start stop : Int)
  | tokenCount
  | emptySkip (position resume : Int)
deriving DecidableEq, Repr

/-- The wording of a fault in given bounds. -/
def BoundsFault.message : BoundsFault → String
  | .negativeStart start => s!"start must be >= 0, got {start}"
  | .emptySpan start stop => s!"end must be > start, got {stop} <= {start}"
  | .tokenCount => "bare statements carry exactly two tokens"
  | .emptySkip position resume => s!"resume_at must be > position, got {resume} <= {position}"

/-- Bounds given from outside are checked in this order: the start, the end, and
the number of tokens of the bare shape. -/
def checkSpan (start stop : Int) (form : Form) (tokens : List Text) : Except BoundsFault Unit :=
  if start < 0 then .error (.negativeStart start)
  else if stop ≤ start then .error (.emptySpan start stop)
  else if form = .bare ∧ tokens.length ≠ 2 then .error .tokenCount
  else .ok ()

/-- A skip given from outside has to move forward. -/
def checkSkip (position resume : Int) : Except BoundsFault Unit :=
  if resume ≤ position then .error (.emptySkip position resume) else .ok ()

end SqlRenewal
