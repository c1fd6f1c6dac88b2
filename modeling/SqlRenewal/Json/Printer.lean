import SqlRenewal.Json.Basic
import SqlRenewal.Text.Integer
import SqlRenewal.Text.Quoted

/-!
# Writing JSON

There are two layouts: one line without any blanks, and lines indented by two
spaces for each level. In strings only the quotation mark, the backslash and the
control characters below the space are escaped.
-/
namespace SqlRenewal.Json

/-- One character of a string. -/
def escapeChar (c : Char) : Text :=
  if c = '"' then ['\\', '"']
  else if c = '\\' then ['\\', '\\']
  else if c = '\n' then ['\\', 'n']
  else if c = '\r' then ['\\', 'r']
  else if c = '\t' then ['\\', 't']
  else if c.toNat = 0x08 then ['\\', 'b']
  else if c.toNat = 0x0C then ['\\', 'f']
  else if c.toNat < 0x20 then '\\' :: 'u' :: Quoted.hex 4 c.toNat
  else [c]

/-- A string between quotation marks. -/
def writeText (text : Text) : Text :=
  '"' :: text.flatMap escapeChar ++ ['"']

/-- A truth value. -/
def writeBool : Bool → Text
  | true => ['t', 'r', 'u', 'e']
  | false => ['f', 'a', 'l', 's', 'e']

/-- The null value. -/
def writeNull : Text := ['n', 'u', 'l', 'l']

mutual

/-- A value on one line. -/
def compact : Json → Text
  | .null => writeNull
  | .bool value => writeBool value
  | .int value => intText value
  | .text value => writeText value
  | .list elements => '[' :: Text.join [','] (compactAll elements) ++ [']']
  | .object fields => '\x7b' :: Text.join [','] (compactFields fields) ++ ['\x7d']

/-- Some values, each on one line. -/
def compactAll : List Json → List Text
  | [] => []
  | element :: rest => compact element :: compactAll rest

/-- Some fields, each on one line. -/
def compactFields : List (Text × Json) → List Text
  | [] => []
  | (key, value) :: rest => (writeText key ++ ':' :: compact value) :: compactFields rest

end

/-- The beginning of a line at the given level. -/
def indentation (level : Nat) : Text :=
  List.replicate (2 * level) ' '

/-- Members of a list or an object at the given level, one to a line, between an
opening and a closing character. Without members these two stand together. -/
def block (opening closing : Char) (level : Nat) (members : List Text) : Text :=
  if members.isEmpty then [opening, closing]
  else
    let line := '\n' :: indentation (level + 1)
    opening :: line ++ Text.join (',' :: line) members ++ '\n' :: indentation level ++ [closing]

mutual

/-- A value that begins on a line of the given level, with its parts indented. -/
def indented (level : Nat) : Json → Text
  | .null => writeNull
  | .bool value => writeBool value
  | .int value => intText value
  | .text value => writeText value
  | .list elements => block '[' ']' level (indentedAll (level + 1) elements)
  | .object fields => block '\x7b' '\x7d' level (indentedFields (level + 1) fields)

/-- Some values of one level. -/
def indentedAll (level : Nat) : List Json → List Text
  | [] => []
  | element :: rest => indented level element :: indentedAll level rest

/-- Some fields of one level. -/
def indentedFields (level : Nat) : List (Text × Json) → List Text
  | [] => []
  | (key, value) :: rest =>
    (writeText key ++ ':' :: ' ' :: indented level value) :: indentedFields level rest

end

/-- A value laid out over several lines, as a command prints it. -/
def document (value : Json) : Except Fault Text :=
  match value.fault? depthLimit with
  | some fault => .error fault
  | none => .ok (indented 0 value ++ ['\n'])

/-- Values one to a line, the fields of objects sorted. -/
def lines (values : List Json) : Except Fault Text :=
  let arranged := values.map arrange
  match firstFault? arranged depthLimit with
  | some fault => .error fault
  | none => .ok (arranged.flatMap fun value => compact value ++ ['\n'])

end SqlRenewal.Json
