import SqlRenewal.Text.Integer

/-!
# Matching parentheses

Parentheses are matched by depth alone: those inside string literals or comments
count like any other. The depth is an integer, because a search may also begin
at a place where nothing is open.
-/
namespace SqlRenewal

/-- The offset of the closing parenthesis that brings the depth to zero. -/
def closeAt? (depth : Int) : Text → Option Nat
  | [] => none
  | c :: rest =>
    if c = '(' then (closeAt? (depth + 1) rest).map (· + 1)
    else if c = ')' then
      if depth = 1 then some 0 else (closeAt? (depth - 1) rest).map (· + 1)
    else (closeAt? depth rest).map (· + 1)

/-- The part of a text that is read from an index on: a negative index counts
from the end, and reading then goes on over the whole text. -/
def readFrom (text : Text) (index : Int) : Text :=
  if index < 0 then text.drop (text.length - index.natAbs) ++ text else text.drop index.toNat

/-- The index of the parenthesis that closes the one at the given index. -/
def matchingClose? (text : Text) (index : Int) : Option Int :=
  (closeAt? 0 (readFrom text index)).map (index + ·)

/-- Why reading cannot begin at an index. -/
inductive IndexFault where
  /-- The index is before the beginning of the text. -/
  | outOfRange
  /-- The index is before the beginning of any text: it fits into no word. -/
  | overflow
deriving DecidableEq, Repr

/-- The wording of an index that the text does not have. -/
def IndexFault.message : IndexFault → String
  | .outOfRange => "string index out of range"
  | .overflow => "cannot fit 'int' into an index-sized integer"

/-- The index of the closing parenthesis, where the text reaches back to the
given index. Reading from behind the end finds nothing, however far behind. -/
def matchingClose (text : Text) (index : Int) : Except IndexFault (Option Int) :=
  if text.length + index < 0 then
    .error (if fitsWord index then .outOfRange else .overflow)
  else .ok (matchingClose? text index)

/-- The place at which a search from an offset begins: a negative offset counts
from the end, and none is before the beginning. -/
def searchStart (text : Text) (offset : Int) : Nat :=
  if offset < 0 then (text.length + offset).toNat else offset.toNat

/-- The offset of the first line break at or after the given one, or the length
of the text. -/
def lineEnd (text : Text) (offset : Int) : Nat :=
  let start := searchStart text offset
  if text.length < start then text.length
  else start + ((text.drop start).takeWhile fun c => !isLineBreak c).length

/-- A closing parenthesis lies inside the text. -/
theorem closeAt?_lt {depth : Int} {text : Text} {offset : Nat}
    (closed : closeAt? depth text = some offset) : offset < text.length := by
  induction text generalizing depth offset with
  | nil => simp [closeAt?] at closed
  | cons c rest inductionHypothesis =>
    have step {d : Int} (later : (closeAt? d rest).map (· + 1) = some offset) :
        offset < (c :: rest).length := by
      obtain ⟨inner, found, rfl⟩ := Option.map_eq_some_iff.mp later
      have bound := inductionHypothesis found
      simp only [List.length_cons]
      omega
    unfold closeAt? at closed
    split at closed
    · exact step closed
    · split at closed
      · split at closed
        · cases closed
          simp
        · exact step closed
      · exact step closed

end SqlRenewal
