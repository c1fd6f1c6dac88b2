import SqlRenewal.Text.Digit

/-!
# Integers in texts

Two readings of a number occur. An integer literal is an optional sign and
decimal digits of any script, with blanks around it. A number given as a setting
or as an option may also have single underscores between its digits, and the
blanks around it are narrower: of the ASCII characters only the space and
U+0009 to U+000D.

A numeral of more than 4300 digits has no value; leading zeros count.

An integer that tells where to begin or how often to do something has to fit into
a word of 64 bits.
-/
namespace SqlRenewal

/-- A sign and decimal digits, most significant first. -/
structure Numeral where
  negative : Bool
  digits : List Nat

/-- The largest number of digits that is converted to a value. -/
def digitLimit : Nat := 4300

/-- A numeral had more digits than are converted to a value. -/
structure DigitOverflow where
  digits : Nat
deriving DecidableEq, Repr

/-- The wording of a refused conversion. -/
def DigitOverflow.message (overflow : DigitOverflow) : String :=
  s!"Exceeds the limit ({digitLimit} digits) for integer string conversion: value has " ++
    s!"{overflow.digits} digits; use sys.set_int_max_str_digits() to increase the limit"

namespace Numeral

/-- The magnitude that decimal digits denote. -/
def magnitude (digits : List Nat) : Nat :=
  digits.foldl (fun value digit => 10 * value + digit) 0

/-- The integer that a numeral denotes. -/
def toInt (numeral : Numeral) : Int :=
  if numeral.negative then -(magnitude numeral.digits : Int) else magnitude numeral.digits

/-- The value of a numeral, unless it has too many digits. -/
def value (numeral : Numeral) : Except DigitOverflow Int :=
  if digitLimit < numeral.digits.length then .error ⟨numeral.digits.length⟩
  else .ok numeral.toInt

/-- An optional sign and the text after it. -/
def splitSign : Text → Bool × Text
  | '-' :: rest => (true, rest)
  | '+' :: rest => (false, rest)
  | text => (false, text)

/-- The digits of a text that has digits only, and at least one. -/
def plainDigits? : Text → Option (List Nat)
  | [] => none
  | [c] => (digitValue? c).map ([·])
  | c :: rest => do return (← digitValue? c) :: (← plainDigits? rest)

/-- The digits of a text in which single underscores may stand between digits. -/
def groupedDigits? : Text → Option (List Nat)
  | [] => none
  | [c] => (digitValue? c).map ([·])
  | c :: '_' :: rest => do return (← digitValue? c) :: (← groupedDigits? rest)
  | c :: rest => do return (← digitValue? c) :: (← groupedDigits? rest)

/-- The numeral that a text is, sign included, without blanks. -/
def ofText? (text : Text) : Option Numeral :=
  let (negative, rest) := splitSign text
  (plainDigits? rest).map (⟨negative, ·⟩)

/-- Blanks that may surround a number given as a setting or an option. -/
def isMargin (c : Char) : Bool :=
  c == ' ' || (decide (0x09 ≤ c.toNat) && decide (c.toNat ≤ 0x0D)) ||
    (decide (0x80 ≤ c.toNat) && isBlank c)

/-- The numeral of a setting or an option. -/
def ofOption? (text : Text) : Option Numeral :=
  let (negative, rest) := splitSign (Text.trimWhile isMargin text)
  (groupedDigits? rest).map (⟨negative, ·⟩)

end Numeral

/-- The value of an integer literal, or nothing when the text is not one. -/
def readLiteral (text : Text) : Except DigitOverflow (Option Int) :=
  match Numeral.ofText? (Text.trim text) with
  | none => .ok none
  | some numeral => numeral.value.map some

/-- The value of a number given as a setting or an option, if it has one. -/
def readNumber? (text : Text) : Option Int :=
  (Numeral.ofOption? text).bind fun numeral => numeral.value.toOption

/-- The integer fits into a word of 64 bits, one of them for the sign. -/
def fitsWord (value : Int) : Bool :=
  decide (-9223372036854775808 ≤ value) && decide (value ≤ 9223372036854775807)

/-- An integer did not fit into a word. -/
structure WordOverflow where
deriving DecidableEq, Repr

/-- The wording of an integer that fits into no word. -/
def WordOverflow.message (_ : WordOverflow) : String :=
  "Python int too large to convert to C ssize_t"

/-- The decimal digits of a natural number, most significant first. -/
def natDigits (n : Nat) : Text :=
  if n < 10 then [Char.ofNat (0x30 + n)]
  else natDigits (n / 10) ++ [Char.ofNat (0x30 + n % 10)]
termination_by n

/-- The decimal writing of an integer, with a minus sign below zero. -/
def intText : Int → Text
  | .ofNat n => natDigits n
  | .negSucc n => '-' :: natDigits (n + 1)

end SqlRenewal
