import SqlRenewal.Text.Lines
import SqlRenewal.Text.Utf8

/-!
# Texts that are written and read again

The bytes of a text decode to this text. Line breaks of another system are the one
thing that reading changes, so a text without carriage returns comes back as it was
written.
-/
namespace SqlRenewal

namespace Utf8

/-- A number below 256 fits into a byte. -/
theorem toNat_toUInt8 {n : Nat} (small : n < 256) : n.toUInt8.toNat = n := by
  simpa using small

/-- A character is a number below the surrogates, or one above them. -/
theorem char_range (c : Char) :
    c.toNat < 0xD800 ∨ 0xDFFF < c.toNat ∧ c.toNat < 0x110000 := c.valid

/-- The byte of six lower bits is a continuation. -/
theorem isContinuation_tail (n : Nat) : isContinuation (0x80 + n % 0x40).toUInt8 = true := by
  have byte : (0x80 + n % 0x40).toUInt8.toNat = 0x80 + n % 0x40 := toNat_toUInt8 (by omega)
  rw [isContinuation, byte, Bool.and_eq_true, decide_eq_true_iff, decide_eq_true_iff]
  omega

/-- A continuation gives back the six bits of which it was made. -/
theorem tailBits_tail (n : Nat) : tailBits (0x80 + n % 0x40).toUInt8 = n % 0x40 := by
  have byte : (0x80 + n % 0x40).toUInt8.toNat = 0x80 + n % 0x40 := toNat_toUInt8 (by omega)
  rw [tailBits, byte]
  omega

/-- The second of three bytes is in the range that the first one leaves to it. -/
theorem secondOfThree_encoded {n : Nat} (large : 0x800 ≤ n) (small : n < 0x10000)
    (noSurrogate : n < 0xD800 ∨ 0xDFFF < n) :
    secondOfThree (0xE0 + n / 0x1000).toUInt8 (0x80 + n / 0x40 % 0x40).toUInt8 = true := by
  have first : (0xE0 + n / 0x1000).toUInt8.toNat = 0xE0 + n / 0x1000 := toNat_toUInt8 (by omega)
  have second : (0x80 + n / 0x40 % 0x40).toUInt8.toNat = 0x80 + n / 0x40 % 0x40 :=
    toNat_toUInt8 (by omega)
  simp only [secondOfThree, isContinuation_tail, first, second, Bool.true_and, Bool.and_eq_true,
    Bool.not_eq_true', Bool.and_eq_false_iff, beq_eq_false_iff_ne, decide_eq_false_iff_not]
  omega

/-- The second of four bytes is in the range that the first one leaves to it. -/
theorem secondOfFour_encoded {n : Nat} (large : 0x10000 ≤ n) (small : n < 0x110000) :
    secondOfFour (0xF0 + n / 0x40000).toUInt8 (0x80 + n / 0x1000 % 0x40).toUInt8 = true := by
  have first : (0xF0 + n / 0x40000).toUInt8.toNat = 0xF0 + n / 0x40000 := toNat_toUInt8 (by omega)
  have second : (0x80 + n / 0x1000 % 0x40).toUInt8.toNat = 0x80 + n / 0x1000 % 0x40 :=
    toNat_toUInt8 (by omega)
  simp only [secondOfFour, isContinuation_tail, first, second, Bool.true_and, Bool.and_eq_true,
    Bool.not_eq_true', Bool.and_eq_false_iff, beq_eq_false_iff_ne, decide_eq_false_iff_not]
  omega

/-- The bytes of a character, whatever follows them, begin with this character. There are four
lengths, told apart by the first byte, and the bits of each are put together again. -/
theorem head_encodeChar (c : Char) (rest : List UInt8) :
    ∃ first tail, encodeChar c = first :: tail ∧
      head first (tail ++ rest) = .char c (tail.length + 1) := by
  have range := char_range c
  have same {n : Nat} (equal : n = c.toNat) : Char.ofNat n = c := by
    rw [equal, Char.ofNat_toNat]
  rw [encodeChar]
  split
  · rename_i one
    have byte : c.toNat.toUInt8.toNat = c.toNat := toNat_toUInt8 (by omega)
    refine ⟨_, [], rfl, ?_⟩
    rw [head, byte, if_pos one, same rfl]
    rfl
  split
  · rename_i several two
    have byte : (0xC0 + c.toNat / 0x40).toUInt8.toNat = 0xC0 + c.toNat / 0x40 :=
      toNat_toUInt8 (by omega)
    refine ⟨_, [(0x80 + c.toNat % 0x40).toUInt8], rfl, ?_⟩
    rw [head, byte, if_neg (by omega), if_neg (by omega), if_pos (by omega)]
    simp only [headOfTwo, List.cons_append, isContinuation_tail, if_true, tailBits_tail, byte]
    rw [same (by omega)]
    rfl
  split
  · rename_i several more three
    have byte : (0xE0 + c.toNat / 0x1000).toUInt8.toNat = 0xE0 + c.toNat / 0x1000 :=
      toNat_toUInt8 (by omega)
    have allowed := secondOfThree_encoded (n := c.toNat) (by omega) three (by omega)
    refine ⟨_, [(0x80 + c.toNat / 0x40 % 0x40).toUInt8, (0x80 + c.toNat % 0x40).toUInt8], rfl, ?_⟩
    rw [head, byte, if_neg (by omega), if_neg (by omega), if_neg (by omega), if_pos (by omega)]
    simp only [headOfThree, List.cons_append, allowed, isContinuation_tail, if_true, tailBits_tail,
      byte]
    rw [same (by omega)]
    rfl
  · rename_i several more most
    have byte : (0xF0 + c.toNat / 0x40000).toUInt8.toNat = 0xF0 + c.toNat / 0x40000 :=
      toNat_toUInt8 (by omega)
    have allowed := secondOfFour_encoded (n := c.toNat) (by omega) (by omega)
    refine ⟨_, [(0x80 + c.toNat / 0x1000 % 0x40).toUInt8, (0x80 + c.toNat / 0x40 % 0x40).toUInt8,
      (0x80 + c.toNat % 0x40).toUInt8], rfl, ?_⟩
    rw [head, byte, if_neg (by omega), if_neg (by omega), if_neg (by omega), if_neg (by omega),
      if_pos (by omega)]
    simp only [headOfFour, List.cons_append, allowed, isContinuation_tail, if_true, tailBits_tail,
      byte]
    rw [same (by omega)]
    rfl

/-- An encoded text is decoded from any position, character by character: each of them is known by
its first byte. -/
theorem decodeFrom_encode (position : Nat) (text : Text) :
    decodeFrom position (encode text) = .ok text := by
  induction text generalizing position with
  | nil => simp [encode, decodeFrom]
  | cons c text inductionHypothesis =>
    obtain ⟨first, tail, bytes, begins⟩ := head_encodeChar c (encode text)
    have whole : encode (c :: text) = first :: (tail ++ encode text) := by
      rw [encode, List.flatMap_cons, bytes]
      rfl
    rw [whole, decodeFrom, begins]
    simp [inductionHypothesis, Except.map]

/-- What is encoded is decoded to the same text. -/
theorem decode_encode (text : Text) : decode (encode text) = .ok text :=
  decodeFrom_encode 0 text

end Utf8

/-! ### Line breaks -/

/-- A text without carriage returns has its line breaks unified already. The induction is that of
the reader, and two of its cases have such a character. -/
theorem unifyLineBreaks_of_no_return {text : Text} (none : '\r' ∉ text) :
    unifyLineBreaks text = text := by
  fun_induction unifyLineBreaks text with
  | case1 => rfl
  | case2 rest => simp at none
  | case3 c rest _ inductionHypothesis =>
    simp only [List.mem_cons, not_or] at none
    rw [if_neg (Ne.symm none.1), inductionHypothesis none.2]

/-- Once line breaks are unified there is no carriage return: alone or in front of a line feed,
each one has become a line feed. -/
theorem no_return_unifyLineBreaks (text : Text) : '\r' ∉ unifyLineBreaks text := by
  fun_induction unifyLineBreaks text with
  | case1 => simp
  | case2 rest inductionHypothesis => simpa using inductionHypothesis
  | case3 c rest _ inductionHypothesis =>
    rw [List.mem_cons, not_or]
    refine ⟨?_, inductionHypothesis⟩
    split
    · decide
    · rename_i other
      exact Ne.symm other

end SqlRenewal
