import SqlRenewal.Text.Word

/-!
# Keywords

A keyword is written here in capital letters and recognised in any case. Beside
the two cases of each letter, the dotted capital and the dotless small i
(U+0130, U+0131) count as an i, the long s (U+017F) as an s and the kelvin sign
(U+212A) as a k. There is no folding of one letter into several.

A word boundary is judged by what stands next to the keyword: the character
before its first letter, and the character after its last.
-/
namespace SqlRenewal

/-- The character is the given capital letter in some writing. For a character
that is not a letter this is equality. -/
def writes (capital c : Char) : Bool :=
  c == capital || c == capital.toLower ||
    (capital == 'I' && (c.toNat == 0x130 || c.toNat == 0x131)) ||
    (capital == 'S' && c.toNat == 0x17F) ||
    (capital == 'K' && c.toNat == 0x212A)

/-- The text after a keyword at its beginning, whatever follows. -/
def dropKeyword? : List Char → Text → Option Text
  | [], text => some text
  | _ :: _, [] => none
  | capital :: capitals, c :: rest =>
    if writes capital c then dropKeyword? capitals rest else none

/-- The character does not continue a word; the end of the text does not either. -/
def endsWord : Option Char → Bool
  | none => true
  | some c => !isWordChar c

/-- The text after a keyword that stands at the beginning and is not continued
by a word character. -/
def dropWord? (capitals : List Char) (text : Text) : Option Text :=
  (dropKeyword? capitals text).filter fun rest => endsWord rest.head?

/-- The text after the first of several keywords that stands at the beginning as
a word, with that keyword. -/
def dropOneWord? (alternatives : List (List Char)) (text : Text) : Option (List Char × Text) :=
  alternatives.findSome? fun capitals => (dropWord? capitals text).map (capitals, ·)

/-- The text after one or more blanks. -/
def dropBlanks? : Text → Option Text
  | [] => none
  | c :: rest => if isBlank c then some (rest.dropWhile isBlank) else none

end SqlRenewal
