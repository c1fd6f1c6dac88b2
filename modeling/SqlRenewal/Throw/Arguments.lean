import SqlRenewal.Text.Blank

/-!
# Argument lists

An argument list is cut at the commas that no open parenthesis encloses. The
depth never falls below zero, so a closing parenthesis without a partner is
plain text. Commas inside string literals are cut at like any other.
-/
namespace SqlRenewal

/-- The depth after one character. -/
def depthAfter (depth : Nat) (c : Char) : Nat :=
  if c = '(' then depth + 1 else if c = ')' then depth - 1 else depth

/-- The first piece of an argument list read at the given depth, and the pieces
after it, exactly as written. -/
def cutArguments : Nat → Text → Text × List Text
  | _, [] => ([], [])
  | depth, c :: rest =>
    let (piece, pieces) := cutArguments (depthAfter depth c) rest
    if c = ',' ∧ depth = 0 then ([], piece :: pieces) else (c :: piece, pieces)

/-- The pieces of an argument list as written; there is always one. -/
def argumentPieces (text : Text) : List Text :=
  (cutArguments 0 text).1 :: (cutArguments 0 text).2

/-- The arguments of a list, without the blanks around them. -/
def splitArguments (text : Text) : List Text :=
  (argumentPieces text).map Text.trim

end SqlRenewal
