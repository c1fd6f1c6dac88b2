import SqlRenewal.Json.Basic
import SqlRenewal.Text.Digit

/-!
# Reading JSON

The reader accepts every layout, every escape, and integers of any size. It has
no reading for fractions, for halves of surrogate pairs, or for texts that go on
after a value.

Values contain values, so the reader is bounded by the length of the text: each
step into a value or on to the next one uses at least one character.
-/
namespace SqlRenewal.Json

/-- A blank between the parts of a value. -/
def isFiller (c : Char) : Bool :=
  c == ' ' || c == '\t' || c == '\n' || c == '\r'

/-- The text without blanks at its beginning. -/
def skipFiller (text : Text) : Text :=
  text.dropWhile isFiller

/-- The value of a hexadecimal digit in either case. -/
def hexValue? (c : Char) : Option Nat :=
  let n := c.toNat
  if 0x30 ≤ n ∧ n ≤ 0x39 then some (n - 0x30)
  else if 0x41 ≤ n ∧ n ≤ 0x46 then some (n - 0x41 + 10)
  else if 0x61 ≤ n ∧ n ≤ 0x66 then some (n - 0x61 + 10)
  else none

/-- The number that four hexadecimal digits denote. -/
def codeUnit? (first second third fourth : Char) : Option Nat := do
  let a ← hexValue? first
  let b ← hexValue? second
  let c ← hexValue? third
  let d ← hexValue? fourth
  return ((a * 16 + b) * 16 + c) * 16 + d

/-- The character that an escape of one letter denotes. -/
def escaped? (c : Char) : Option Char :=
  if c = '"' ∨ c = '\\' ∨ c = '/' then some c
  else if c = 'n' then some '\n'
  else if c = 'r' then some '\r'
  else if c = 't' then some '\t'
  else if c = 'b' then some (Char.ofNat 0x08)
  else if c = 'f' then some (Char.ofNat 0x0C)
  else none

/-- The character of a surrogate pair. -/
def pairedChar? (high low : Nat) : Option Char :=
  if 0xDC00 ≤ low ∧ low < 0xE000 then
    some (Char.ofNat (0x10000 + (high - 0xD800) * 0x400 + (low - 0xDC00)))
  else none

/-- A string after its opening quotation mark, and the text after its closing
one. -/
def readText : Text → Option (Text × Text)
  | [] => none
  | '"' :: rest => some ([], rest)
  | '\\' :: 'u' :: a :: b :: c :: d :: rest => do
    let unit ← codeUnit? a b c d
    if 0xD800 ≤ unit ∧ unit < 0xDC00 then
      match rest with
      | '\\' :: 'u' :: e :: f :: g :: h :: tail => do
        let char ← pairedChar? unit (← codeUnit? e f g h)
        let (content, after) ← readText tail
        return (char :: content, after)
      | _ => none
    else if 0xDC00 ≤ unit ∧ unit < 0xE000 then none
    else do
      let (content, after) ← readText rest
      return (Char.ofNat unit :: content, after)
  | '\\' :: c :: rest => do
    let char ← escaped? c
    let (content, after) ← readText rest
    return (char :: content, after)
  | c :: rest => do
    if c.toNat < 0x20 then none
    else
      let (content, after) ← readText rest
      return (c :: content, after)

/-- A digit of a number. -/
def isNumberDigit (c : Char) : Bool :=
  decide ('0' ≤ c) && decide (c ≤ '9')

/-- The number that decimal digits denote. -/
def decimal (digits : Text) : Nat :=
  digits.foldl (fun value c => 10 * value + (c.toNat - 0x30)) 0

/-- An integer at the beginning of a text. -/
def readInt (text : Text) : Option (Int × Text) :=
  let (negative, rest) := match text with
    | '-' :: rest => (true, rest)
    | _ => (false, text)
  let digits := rest.takeWhile isNumberDigit
  if digits = [] then none
  else
    let magnitude : Int := decimal digits
    some (if negative then -magnitude else magnitude, rest.dropWhile isNumberDigit)

mutual

/-- A value at the beginning of a text, and the text after it. -/
def readValue : (bound : Nat) → Text → Option (Json × Text)
  | 0, _ => none
  | bound + 1, source =>
    match skipFiller source with
    | 'n' :: 'u' :: 'l' :: 'l' :: rest => some (.null, rest)
    | 't' :: 'r' :: 'u' :: 'e' :: rest => some (.bool true, rest)
    | 'f' :: 'a' :: 'l' :: 's' :: 'e' :: rest => some (.bool false, rest)
    | '"' :: rest => (readText rest).map fun (value, after) => (.text value, after)
    | '[' :: rest =>
      match skipFiller rest with
      | ']' :: after => some (.list [], after)
      | inside => (readElements bound inside).map fun (elements, after) => (.list elements, after)
    | '\x7b' :: rest =>
      match skipFiller rest with
      | '\x7d' :: after => some (.object [], after)
      | inside => (readFields bound inside).map fun (fields, after) => (.object fields, after)
    | other => (readInt other).map fun (value, after) => (.int value, after)

/-- The elements of a list that is not empty, up to its closing bracket. -/
def readElements : (bound : Nat) → Text → Option (List Json × Text)
  | 0, _ => none
  | bound + 1, source => do
    let (element, rest) ← readValue bound source
    match skipFiller rest with
    | ']' :: after => return ([element], after)
    | ',' :: more =>
      let (elements, after) ← readElements bound more
      return (element :: elements, after)
    | _ => none

/-- The fields of an object that is not empty, up to its closing brace. -/
def readFields : (bound : Nat) → Text → Option (List (Text × Json) × Text)
  | 0, _ => none
  | bound + 1, source =>
    match skipFiller source with
    | '"' :: named => do
      let (key, rest) ← readText named
      match skipFiller rest with
      | ':' :: valued => do
        let (value, rest) ← readValue bound valued
        match skipFiller rest with
        | '\x7d' :: after => return ([(key, value)], after)
        | ',' :: more =>
          let (fields, after) ← readFields bound more
          return ((key, value) :: fields, after)
        | _ => none
      | _ => none
    | _ => none

end

/-- The value that a whole text is. -/
def ofText? (text : Text) : Option Json := do
  let (value, rest) ← readValue (2 * text.length + 2) text
  if skipFiller rest = [] then return value else none

end SqlRenewal.Json
