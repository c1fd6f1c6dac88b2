import SqlRenewal.Throw.Arguments
import SqlRenewal.Raise.Span

/-!
# The modern statement for a legacy one

A legacy statement becomes `;THROW code, message, state`. In an argument list
the first argument is either an integer literal, which is the code, or a
reference, which is the message under the lowest custom code. The second
argument is a severity; the modern statement has no place for it. The third is
the state. Further arguments were substituted into the message and are dropped.
-/
namespace SqlRenewal

/-- The lowest code of a custom error. -/
def lowestCode : Int := 50000

/-- The message of a statement that gives a code and no message. -/
def defaultMessage : Text := "'An error occurred'".toList

/-- The state of a statement that gives none. -/
def defaultState : Int := 1

/-- Where the code of the modern statement comes from. -/
inductive CodeSource where
  /-- A literal, already raised to the lowest custom code. -/
  | literal (value : Int)
  /-- A variable or an expression, which is the message. -/
  | reference (expression : Text)
deriving DecidableEq, Repr

/-- The arguments of a legacy statement as they were written. -/
structure LegacyArguments where
  raw : Text
  first : Text
  second : Option Text
  third : Option Text
  fourth : Option Text
deriving DecidableEq, Repr

/-- The modern statement chosen for a legacy one, with what is left out of it. -/
structure Reading where
  source : CodeSource
  message : Text
  state : Int
  arguments : LegacyArguments
  severity : Option Text
  dropped : List Text
deriving DecidableEq, Repr

/-- The error code of the modern statement. -/
def CodeSource.code : CodeSource → Int
  | .literal value => value
  | .reference _ => lowestCode

/-- The error code of a reading. -/
def Reading.code (reading : Reading) : Int :=
  reading.source.code

/-- The arguments of the modern statement. -/
def Reading.body (reading : Reading) : Text :=
  intText reading.code ++ [',', ' '] ++ reading.message ++ [',', ' '] ++ intText reading.state

/-- The modern statement. -/
def Reading.render (reading : Reading) : Text :=
  [';', 'T', 'H', 'R', 'O', 'W', ' '] ++ reading.body

/-- A literal is read with the digit limit as a reason to stop. -/
def readLiteralOr (text : Text) : Except Reason (Option Int) :=
  (readLiteral text).mapError .digitOverflow

/-- The first argument: a literal if it is an integer, raised to the lowest
custom code, and a reference otherwise. A variable or a parenthesis makes it a
reference at once. -/
def readCode (token : Text) : Except Reason CodeSource :=
  if token.contains '@' || token.contains '(' || token.contains ')' then .ok (.reference token)
  else do
    match ← readLiteralOr token with
    | none => return .reference token
    | some value => return .literal (max value lowestCode)

/-- The state argument; anything but an integer literal counts as the default. -/
def readState : Option Text → Except Reason Int
  | none => .ok defaultState
  | some token => do return (← readLiteralOr token).getD defaultState

/-- Reads the argument list of a parenthesized statement. -/
def readArguments (text : Text) : Except Reason Reading :=
  let tokens := splitArguments text
  let first := tokens.headD []
  if first = [] then .error .emptyArgument
  else do
    let source ← readCode first
    let state ← readState tokens[2]?
    let arguments : LegacyArguments := ⟨text, first, tokens[1]?, tokens[2]?, tokens[3]?⟩
    match source with
    | .literal _ =>
      let message := (tokens[3]?.filter (· ≠ [])).getD defaultMessage
      return ⟨source, message, state, arguments, tokens[1]?, tokens.drop 4⟩
    | .reference expression =>
      return ⟨source, expression, state, arguments, tokens[1]?, tokens.drop 3⟩

/-- Reads the code and the message of a bare statement. That shape has neither a
severity nor a state. -/
def readBare (code message : Text) : Except Reason Reading := do
  match ← readLiteralOr code with
  | none => .error (.notANumber code)
  | some value =>
    let arguments : LegacyArguments :=
      ⟨code ++ [' '] ++ message, code, none, none, some message⟩
    return ⟨.literal (max value lowestCode), message, defaultState, arguments, none, []⟩

/-- Reads the arguments of a statement of either shape. -/
def readSpan (span : Span) : Except Reason Reading :=
  match span.layout with
  | .parenthesized => readArguments span.arguments
  | .bare code message => readBare code message

end SqlRenewal
