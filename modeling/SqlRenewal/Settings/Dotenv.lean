import SqlRenewal.Association
import SqlRenewal.Text.Lines

/-!
# Settings files

A settings file assigns values to keys, one assignment to a line. Blank lines,
lines that begin with a number sign, and lines without an equals sign say nothing.
Blanks around key and value do not count, nor do quotes around the value.
-/
namespace SqlRenewal.Dotenv

/-- A quote that may surround a value. -/
def isQuote (c : Char) : Bool :=
  c == '\'' || c == '"'

/-- The assignment on a line, if there is one. -/
def assignment? (line : Text) : Option (Text × Text) :=
  let content := Text.trim line
  if content.head? = some '#' then none
  else match Text.breakAt? '=' content with
    | none => none
    | some (left, right) =>
      let key := Text.trim left
      if key = [] then none else some (key, Text.trimWhile isQuote (Text.trim right))

/-- Adds the assignment of a line to those before it. -/
def addLine (values : List (Text × Text)) (line : Text) : List (Text × Text) :=
  match assignment? line with
  | some (key, value) => assign key value values
  | none => values

/-- The assignments of a settings file. A key assigned twice keeps its place and
has its last value. -/
def read (text : Text) : List (Text × Text) :=
  (splitLines text).foldl addLine []

end SqlRenewal.Dotenv
