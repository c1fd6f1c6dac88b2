import SqlRenewal.Text.Quoted

/-!
# UTF-8

Files hold bytes. Decoding is strict: overlong forms, surrogates and code points
beyond U+10FFFF are refused, and the first fault is reported with the bytes that
could not belong to a character. A fault spans the start byte and those of its
continuation bytes that were still possible; at the end of the data it spans all
that is left.
-/
namespace SqlRenewal.Utf8

/-- Why bytes are not a character. -/
inductive Cause where
  | startByte
  | continuationByte
  | endOfData
deriving DecidableEq, Repr

/-- The wording of a cause. -/
def Cause.message : Cause → String
  | .startByte => "invalid start byte"
  | .continuationByte => "invalid continuation byte"
  | .endOfData => "unexpected end of data"

/-- The first bytes of a file that cannot be decoded: where they start, the
first of them, how many they are, and why. -/
structure Fault where
  start : Nat
  first : UInt8
  count : Nat
  cause : Cause
deriving DecidableEq, Repr

/-- The wording of a fault: the byte or the range of bytes, and the cause. -/
def Fault.message (fault : Fault) : String :=
  let place :=
    if fault.count = 1 then
      s!"byte 0x{String.ofList (Quoted.hex 2 fault.first.toNat)} in position {fault.start}"
    else s!"bytes in position {fault.start}-{fault.start + fault.count - 1}"
  s!"'utf-8' codec can't decode {place}: {fault.cause.message}"

/-- A byte that continues a character. -/
def isContinuation (b : UInt8) : Bool :=
  decide (0x80 ≤ b.toNat) && decide (b.toNat < 0xC0)

/-- The six bits of a continuation byte. -/
def tailBits (b : UInt8) : Nat :=
  b.toNat % 0x40

/-- What the head of a byte sequence is: a character with its number of bytes,
or a fault with the number of bytes it spans. -/
inductive Head where
  | char (c : Char) (width : Nat)
  | fault (count : Nat) (cause : Cause)

/-- The bytes that may follow the start byte of a three-byte character: the
range excludes overlong forms and surrogates. -/
def secondOfThree (first second : UInt8) : Bool :=
  isContinuation second && !(first.toNat == 0xE0 && decide (second.toNat < 0xA0)) &&
    !(first.toNat == 0xED && decide (0xA0 ≤ second.toNat))

/-- The bytes that may follow the start byte of a four-byte character: the range
excludes overlong forms and code points beyond the last. -/
def secondOfFour (first second : UInt8) : Bool :=
  isContinuation second && !(first.toNat == 0xF0 && decide (second.toNat < 0x90)) &&
    !(first.toNat == 0xF4 && decide (0x90 ≤ second.toNat))

/-- A two-byte character. -/
def headOfTwo (first : UInt8) : List UInt8 → Head
  | [] => .fault 1 .endOfData
  | second :: _ =>
    if isContinuation second then .char (Char.ofNat (first.toNat % 0x20 * 0x40 + tailBits second)) 2
    else .fault 1 .continuationByte

/-- A three-byte character. -/
def headOfThree (first : UInt8) : List UInt8 → Head
  | [] => .fault 1 .endOfData
  | second :: rest =>
    if secondOfThree first second then
      match rest with
      | [] => .fault 2 .endOfData
      | third :: _ =>
        if isContinuation third then
          .char (Char.ofNat ((first.toNat % 0x10 * 0x40 + tailBits second) * 0x40 + tailBits third)) 3
        else .fault 2 .continuationByte
    else .fault 1 .continuationByte

/-- A four-byte character. -/
def headOfFour (first : UInt8) : List UInt8 → Head
  | [] => .fault 1 .endOfData
  | second :: rest =>
    if secondOfFour first second then
      match rest with
      | [] => .fault 2 .endOfData
      | third :: rest =>
        if isContinuation third then
          match rest with
          | [] => .fault 3 .endOfData
          | fourth :: _ =>
            if isContinuation fourth then
              .char (Char.ofNat (((first.toNat % 0x08 * 0x40 + tailBits second) * 0x40 +
                tailBits third) * 0x40 + tailBits fourth)) 4
            else .fault 3 .continuationByte
        else .fault 2 .continuationByte
    else .fault 1 .continuationByte

/-- The head of a byte sequence that starts with the given byte. -/
def head (first : UInt8) (rest : List UInt8) : Head :=
  if first.toNat < 0x80 then .char (Char.ofNat first.toNat) 1
  else if first.toNat < 0xC2 then .fault 1 .startByte
  else if first.toNat < 0xE0 then headOfTwo first rest
  else if first.toNat < 0xF0 then headOfThree first rest
  else if first.toNat < 0xF5 then headOfFour first rest
  else .fault 1 .startByte

/-- Decodes bytes that start at the given position of a file. -/
def decodeFrom (position : Nat) : List UInt8 → Except Fault Text
  | [] => .ok []
  | first :: rest =>
    match head first rest with
    | .fault count cause => .error ⟨position, first, count, cause⟩
    | .char c width => (decodeFrom (position + width) (rest.drop (width - 1))).map (c :: ·)
termination_by bytes => bytes.length
decreasing_by simp only [List.length_drop, List.length_cons]; omega

/-- The text of a file. -/
def decode (bytes : List UInt8) : Except Fault Text :=
  decodeFrom 0 bytes

/-- The bytes of a character. -/
def encodeChar (c : Char) : List UInt8 :=
  let n := c.toNat
  if n < 0x80 then [n.toUInt8]
  else if n < 0x800 then [(0xC0 + n / 0x40).toUInt8, (0x80 + n % 0x40).toUInt8]
  else if n < 0x10000 then
    [(0xE0 + n / 0x1000).toUInt8, (0x80 + n / 0x40 % 0x40).toUInt8, (0x80 + n % 0x40).toUInt8]
  else
    [(0xF0 + n / 0x40000).toUInt8, (0x80 + n / 0x1000 % 0x40).toUInt8,
      (0x80 + n / 0x40 % 0x40).toUInt8, (0x80 + n % 0x40).toUInt8]

/-- The bytes of a text. -/
def encode (text : Text) : List UInt8 :=
  text.flatMap encodeChar

/-- The number of bytes of a text. -/
def byteCount (text : Text) : Nat :=
  (encode text).length

end SqlRenewal.Utf8
