import SqlRenewal.Text.Keyword

/-!
# Patterns of deprecated syntax

A pattern recognises one deprecated construct at the place where a reader
stands, and says what replaces it. It sees the text to come and the one
character before it. None of the patterns knows where string literals or
comments begin. Beside those of the built-in rules there are patterns of any
other rule that a caller brings along.

Scanning goes from left to right, takes the first match at each place, and goes
on behind it; the character before the next place is the last one of the match. A
match that takes nothing is followed by the character in front of which it stands,
and there can be one more of them behind the last character.
-/
namespace SqlRenewal

/-- The two sides of an old-style outer join. -/
inductive JoinSide where
  | left
  | right
deriving DecidableEq, Repr

/-- A recognisable construct with its replacement. -/
inductive Pattern where
  /-- A keyword between blanks. -/
  | typeName (capitals : List Char) (replacement : Text)
  /-- A call of `GETDATE` without arguments. -/
  | currentDate
  /-- An outer-join operator. -/
  | outerJoin (side : JoinSide)
  /-- A `SET` option that is turned off. -/
  | optionOff (capitals : List Char)
  /-- The first words of a definition. -/
  | definition
  /-- Whatever else a caller looks for, given by what it finds between the character
  before it and the text to come: how many characters it takes, and what it puts in
  their place. -/
  | custom (find : Option Char → Text → Option (Nat × Text))

/-- A given text, character for character. -/
def Pattern.literal (find put : Text) : Pattern :=
  .custom fun _ text => if find.isPrefixOf text then some (find.length, put) else none

/-- What a pattern takes from the text and what it puts there. -/
structure Hit where
  taken : Text
  put : Text
deriving DecidableEq, Repr

/-- The kinds of definitions, as their first words name them. -/
def definitionWords : List (List Char) :=
  [['P', 'R', 'O', 'C', 'E', 'D', 'U', 'R', 'E'], ['P', 'R', 'O', 'C'],
    ['F', 'U', 'N', 'C', 'T', 'I', 'O', 'N'], ['T', 'R', 'I', 'G', 'G', 'E', 'R'],
    ['V', 'I', 'E', 'W']]

/-- The characters of a text up to a remainder of it. -/
def takenBefore (text rest : Text) : Text :=
  text.take (text.length - rest.length)

/-- The character is a blank that stands there. -/
def isBlankBeside (neighbour : Option Char) : Bool :=
  neighbour.any isBlank

/-- The neighbour is none of the given characters. -/
def isNoneOf (excluded : List Char) (neighbour : Option Char) : Bool :=
  !neighbour.any excluded.contains

/-- A keyword between blanks. -/
def typeNameHit? (capitals : List Char) (replacement : Text) (before : Option Char)
    (text : Text) : Option Hit :=
  if isBlankBeside before then
    match dropKeyword? capitals text with
    | some rest =>
      if isBlankBeside rest.head? then some ⟨takenBefore text rest, replacement⟩ else none
    | none => none
  else none

/-- `GETDATE` and an empty pair of parentheses, with blanks allowed between. -/
def currentDateHit? (before : Option Char) (text : Text) : Option Hit :=
  if endsWord before then
    match dropKeyword? ['G', 'E', 'T', 'D', 'A', 'T', 'E'] text with
    | some rest =>
      match rest.dropWhile isBlank with
      | '(' :: inside =>
        match inside.dropWhile isBlank with
        | ')' :: after => some ⟨takenBefore text after, "SYSDATETIME()".toList⟩
        | _ => none
      | _ => none
    | none => none
  else none

/-- An outer-join operator. Next to other operator characters, or where it is
part of a comment mark, it is something else. -/
def outerJoinHit? (side : JoinSide) (before : Option Char) (text : Text) : Option Hit :=
  match side, text with
  | .left, '*' :: '=' :: rest =>
    if isNoneOf ['/', '*'] before && isNoneOf ['*', '='] rest.head? then
      some ⟨['*', '='], "LEFT JOIN".toList⟩
    else none
  | .right, '=' :: '*' :: rest =>
    if isNoneOf ['=', '*', '<', '>', '!'] before && isNoneOf ['*', '/'] rest.head? then
      some ⟨['=', '*'], "RIGHT JOIN".toList⟩
    else none
  | _, _ => none

/-- `SET`, the option and `OFF`, with blanks between; only the last word changes. -/
def optionOffHit? (capitals : List Char) (before : Option Char) (text : Text) : Option Hit :=
  if endsWord before then
    match (dropKeyword? ['S', 'E', 'T'] text).bind dropBlanks? with
    | some named =>
      match (dropKeyword? capitals named).bind dropBlanks? with
      | some value =>
        match dropWord? ['O', 'F', 'F'] value with
        | some rest => some ⟨takenBefore text rest, takenBefore text value ++ ['O', 'N']⟩
        | none => none
      | none => none
    | none => none
  else none

/-- `CREATE` and the kind of a definition; the kind stays as written. -/
def definitionHit? (before : Option Char) (text : Text) : Option Hit :=
  if endsWord before then
    match (dropKeyword? ['C', 'R', 'E', 'A', 'T', 'E'] text).bind dropBlanks? with
    | some kind =>
      match dropOneWord? definitionWords kind with
      | some (_, rest) =>
        some ⟨takenBefore text rest, "ALTER ".toList ++ takenBefore kind rest⟩
      | none => none
    | none => none
  else none

/-- What a caller looks for. -/
def customHit? (find : Option Char → Text → Option (Nat × Text)) (before : Option Char)
    (text : Text) : Option Hit :=
  (find before text).map fun (length, put) => ⟨text.take length, put⟩

/-- The match of a pattern at the beginning of a text. -/
def Pattern.hit? : Pattern → Option Char → Text → Option Hit
  | .typeName capitals replacement => typeNameHit? capitals replacement
  | .currentDate => currentDateHit?
  | .outerJoin side => outerJoinHit? side
  | .optionOff capitals => optionOffHit? capitals
  | .definition => definitionHit?
  | .custom find => customHit? find

/-- A scanned text: characters that no match covers, and matches. -/
inductive Piece where
  | plain (c : Char)
  | hit (hit : Hit)
deriving DecidableEq, Repr

/-- Scans a text that follows the given character. -/
def Pattern.scan (pattern : Pattern) : Option Char → Text → List Piece
  | before, [] => (pattern.hit? before []).toList.map .hit
  | before, c :: rest =>
    match pattern.hit? before (c :: rest) with
    | none => .plain c :: pattern.scan (some c) rest
    | some hit =>
      if hit.taken = [] then .hit hit :: .plain c :: pattern.scan (some c) rest
      else .hit hit :: pattern.scan (hit.taken.getLast?.or before) (rest.drop (hit.taken.length - 1))
termination_by _ text => text.length
decreasing_by all_goals simp only [List.length_drop, List.length_cons]; omega

/-- The matches of a scanned text. -/
def hitsOf (pieces : List Piece) : List Hit :=
  pieces.filterMap fun
    | .plain _ => none
    | .hit hit => some hit

/-- The matches of a pattern in a text, from left to right. -/
def Pattern.hits (pattern : Pattern) (text : Text) : List Hit :=
  hitsOf (pattern.scan none text)

/-- The text with its first matches replaced, as many as the allowance says, or
all of them when there is none. -/
def replaceHits : Option Nat → List Piece → Text
  | _, [] => []
  | allowance, .plain c :: pieces => c :: replaceHits allowance pieces
  | none, .hit hit :: pieces => hit.put ++ replaceHits none pieces
  | some 0, .hit hit :: pieces => hit.taken ++ replaceHits (some 0) pieces
  | some (n + 1), .hit hit :: pieces => hit.put ++ replaceHits (some n) pieces

end SqlRenewal
