import SqlRenewal.Text.Printable
import SqlRenewal.Text.Blank

/-!
# Quoted texts

Messages show a text between quotes. The quote is the apostrophe, unless the
text has an apostrophe and no quotation mark. Inside, the backslash and the
chosen quote are preceded by a backslash, the three usual control characters
have their letters, and any other character that is not printable is written by
its code point in two, four or eight hexadecimal digits.
-/
namespace SqlRenewal.Quoted

/-- A hexadecimal digit in lower case. -/
def hexDigit (n : Nat) : Char :=
  if n < 10 then Char.ofNat (0x30 + n) else Char.ofNat (0x61 + (n - 10))

/-- A number in the given count of hexadecimal digits. -/
def hex : (width n : Nat) → Text
  | 0, _ => []
  | width + 1, n => hex width (n / 16) ++ [hexDigit (n % 16)]

/-- A character that is not printable, by its code point. -/
def escapeByCode (c : Char) : Text :=
  if c.toNat < 0x100 then '\\' :: 'x' :: hex 2 c.toNat
  else if c.toNat < 0x10000 then '\\' :: 'u' :: hex 4 c.toNat
  else '\\' :: 'U' :: hex 8 c.toNat

/-- One character between the given quotes. -/
def escape (quote c : Char) : Text :=
  if c = quote ∨ c = '\\' then ['\\', c]
  else if c = '\n' then ['\\', 'n']
  else if c = '\r' then ['\\', 'r']
  else if c = '\t' then ['\\', 't']
  else if isPrintable c then [c]
  else escapeByCode c

/-- The quote that surrounds a text. -/
def quoteFor (text : Text) : Char :=
  if text.contains '\'' && !text.contains '"' then '"' else '\''

/-- The text as a message shows it. -/
def encode (text : Text) : Text :=
  let quote := quoteFor text
  quote :: text.flatMap (escape quote) ++ [quote]

end SqlRenewal.Quoted
