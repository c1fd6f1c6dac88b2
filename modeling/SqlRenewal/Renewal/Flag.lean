import SqlRenewal.Renewal.Literal
import SqlRenewal.Throw.Reading
import SqlRenewal.Text.Keyword

/-!
# Review flags

A flag asks a person to look at a place that the program decided without
certainty, or left alone.
-/
namespace SqlRenewal

/-- Why a person should look at a place. -/
inductive Flag where
  /-- A literal holds a delimiter, so the arguments may be split wrongly. -/
  | delimitedLiteral
  /-- Arguments were left out of the modern statement. -/
  | droppedArguments (arguments : List Text)
  /-- An option follows the statement that the modern one does not have. -/
  | trailingOption
  /-- A statement stays as it is. -/
  | leftUnchanged (position : Nat) (reason : Reason)
deriving DecidableEq, Repr

/-- The wording of a flag. -/
def Flag.message : Flag → String
  | .delimitedLiteral =>
    "string literal contains a comma or parenthesis; verify the argument split"
  | .droppedArguments arguments =>
    s!"{arguments.length} substitution argument(s) dropped: " ++
      String.ofList (Text.join [',', ' '] arguments)
  | .trailingOption => "WITH option follows the statement and has no THROW equivalent"
  | .leftUnchanged position reason =>
    s!"RAISERROR at offset {position} left unchanged: {reason.message}"

/-- The options that may follow a legacy statement. -/
def statementOptions : List (List Char) :=
  [['N', 'O', 'W', 'A', 'I', 'T'], ['L', 'O', 'G'], ['S', 'E', 'T', 'E', 'R', 'R', 'O', 'R']]

/-- The text begins, after spaces and tabs, with `WITH` and an option. -/
def startsOption (tail : Text) : Bool :=
  match (dropKeyword? ['W', 'I', 'T', 'H'] (tail.dropWhile isInlineBlank)).bind dropBlanks? with
  | some option => (dropOneWord? statementOptions option).isSome
  | none => false

/-- The flags of a statement that is replaced by its reading, where `tail` is
the text after it. -/
def readingFlags (span : Span) (reading : Reading) (tail : Text) : List Flag :=
  (if span.layout = .parenthesized ∧ hasDelimitedLiteral span.arguments then
    [.delimitedLiteral] else []) ++
  (if reading.dropped = [] then [] else [.droppedArguments reading.dropped]) ++
  (if startsOption tail then [.trailingOption] else [])

end SqlRenewal
