import SqlRenewal.Text.CharRanges

/-!
# Texts, blanks and trimming

A text is a list of characters. Blanks are the white space of the Unicode
standard together with the four ASCII separators U+001C to U+001F. Trimming
removes a class of characters from the ends and touches nothing between the
first and the last character outside the class.
-/
namespace SqlRenewal

/-- A text, character by character. Every offset counts characters. -/
abbrev Text := List Char

/-- The code points that separate words. -/
def blankRanges : CharRanges :=
  [(0x0009, 0x000D), (0x001C, 0x0020), (0x0085, 0x0085), (0x00A0, 0x00A0), (0x1680, 0x1680),
    (0x2000, 0x200A), (0x2028, 0x2029), (0x202F, 0x202F), (0x205F, 0x205F), (0x3000, 0x3000)]

/-- White space of any kind, line breaks included. -/
def isBlank (c : Char) : Bool :=
  blankRanges.holds c

/-- A space or a tab: the blanks that stay on one line. -/
def isInlineBlank (c : Char) : Bool :=
  c == ' ' || c == '\t'

/-- A carriage return or a line feed. -/
def isLineBreak (c : Char) : Bool :=
  c == '\r' || c == '\n'

namespace Text

/-- The text without the characters of a class at its end. -/
def trimRightWhile (drop : Char → Bool) (text : Text) : Text :=
  (text.reverse.dropWhile drop).reverse

/-- The text without the characters of a class at either end. -/
def trimWhile (drop : Char → Bool) (text : Text) : Text :=
  trimRightWhile drop (text.dropWhile drop)

/-- The text without blanks at its end. -/
def trimRight (text : Text) : Text :=
  trimRightWhile isBlank text

/-- The text without blanks at either end. -/
def trim (text : Text) : Text :=
  trimWhile isBlank text

/-- The texts one after the other, with a separator between neighbours. -/
def join (separator : Text) : List Text → Text
  | [] => []
  | [last] => last
  | first :: second :: rest => first ++ separator ++ join separator (second :: rest)

/-- The parts of a text between the occurrences of one character. There is
always at least one part. -/
def splitAt (separator : Char) : Text → List Text
  | [] => [[]]
  | c :: rest =>
    if c = separator then [] :: splitAt separator rest
    else match splitAt separator rest with
      | [] => [[c]]
      | part :: parts => (c :: part) :: parts

/-- The text before the first occurrence of a character and the text after it,
or nothing when the character does not occur. -/
def breakAt? (separator : Char) : Text → Option (Text × Text)
  | [] => none
  | c :: rest =>
    if c = separator then some ([], rest)
    else (breakAt? separator rest).map fun (before, after) => (c :: before, after)

/-- The remainder of a text that begins with the given characters. -/
def dropExact? : List Char → Text → Option Text
  | [], text => some text
  | _ :: _, [] => none
  | c :: expected, d :: rest => if c = d then dropExact? expected rest else none

/-- The order of texts by code points, a proper beginning coming first. -/
def ble : Text → Text → Bool
  | [], _ => true
  | _ :: _, [] => false
  | c :: rest, d :: other => decide (c.toNat < d.toNat) || (c == d && ble rest other)

end Text

end SqlRenewal
