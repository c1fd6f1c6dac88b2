import SqlRenewal.Substitution.Pattern
import SqlRenewal.Text.UpperCase

/-!
# Kinds of routines

The kind of a routine is the word after the first `CREATE`, `CREATE OR ALTER` or
`ALTER` that one of the known kinds follows. A text without such words is taken
for a procedure.
-/
namespace SqlRenewal

/-- The kind of a routine whose text does not say. -/
def procedureKind : Text := "PROCEDURE".toList

/-- The text after the verb of a definition at the beginning of a text. -/
def dropVerb? (text : Text) : Option Text :=
  match dropKeyword? ['C', 'R', 'E', 'A', 'T', 'E'] text with
  | some rest =>
    let orAlter := ((dropBlanks? rest).bind (dropKeyword? ['O', 'R'])).bind fun tail =>
      (dropBlanks? tail).bind (dropKeyword? ['A', 'L', 'T', 'E', 'R'])
    some (orAlter.getD rest)
  | none => dropKeyword? ['A', 'L', 'T', 'E', 'R'] text

/-- The kind as written by a definition that starts here. -/
def writtenKind? (before : Option Char) (text : Text) : Option Text :=
  if endsWord before then
    match (dropVerb? text).bind dropBlanks? with
    | some kind => (dropOneWord? definitionWords kind).map fun (_, rest) => takenBefore kind rest
    | none => none
  else none

/-- The kind as written by the first definition of a text. -/
def firstKind? : Option Char → Text → Option Text
  | _, [] => none
  | before, c :: rest => (writtenKind? before (c :: rest)).or (firstKind? (some c) rest)

/-- The kind of the routine that a text defines. -/
def kindOf (text : Text) : Text :=
  match firstKind? none text with
  | none => procedureKind
  | some written =>
    let kind := Text.upper written
    if kind = "PROC".toList then procedureKind else kind

end SqlRenewal
