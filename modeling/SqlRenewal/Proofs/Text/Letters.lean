import SqlRenewal.Text.Digit
import SqlRenewal.Text.Keyword

/-!
# Letters, blanks and digits

A keyword is given by capital letters and found in any writing of them. The
writings of a letter are finitely many characters, so what a keyword cannot
contain (blanks, digits, parentheses, commas) is settled by looking at each of
them once. The tables of word characters are consulted here and nowhere else.
-/
namespace SqlRenewal

/-- What is claimed of the characters of a list is decided by going through the list,
and never through all characters there are. -/
instance (priority := 2000) decidableForallMem (claim : Char → Prop) [DecidablePred claim]
    (characters : List Char) : Decidable (∀ c ∈ characters, claim c) :=
  List.decidableBAll claim characters

/-! ### Letters -/

/-- The characters in which keywords are given. -/
def capitalLetters : List Char :=
  ['A', 'B', 'C', 'D', 'E', 'F', 'G', 'H', 'I', 'J', 'K', 'L', 'M', 'N', 'O', 'P', 'Q', 'R', 'S',
    'T', 'U', 'V', 'W', 'X', 'Y', 'Z', '_']

/-- All writings of the capital letters. -/
def letterForms : List Char :=
  capitalLetters ++ capitalLetters.map Char.toLower ++ ['\u0130', '\u0131', '\u017F', '\u212A']

/-- A writing of a capital letter is one of finitely many characters: the letter itself, its small
form, or one of the special signs that count as one. -/
theorem mem_letterForms {capital c : Char} (known : capital ∈ capitalLetters)
    (written : writes capital c = true) : c ∈ letterForms := by
  have exactly {n : Nat} {d : Char} (same : c.toNat = n) (value : Char.ofNat n = d) : c = d := by
    rw [← value, ← same, Char.ofNat_toNat]
  simp only [writes, Bool.or_eq_true, Bool.and_eq_true, beq_iff_eq] at written
  simp only [letterForms, List.mem_append, List.mem_map]
  rcases written with (((rfl | rfl) | ⟨_, special | special⟩) | ⟨_, special⟩) | ⟨_, special⟩
  · exact .inl (.inl known)
  · exact .inl (.inr ⟨capital, known, rfl⟩)
  · exact .inr (by rw [exactly special rfl]; decide)
  · exact .inr (by rw [exactly special rfl]; decide)
  · exact .inr (by rw [exactly special rfl]; decide)
  · exact .inr (by rw [exactly special rfl]; decide)

/-- Every form of a letter is a character of words. The forms are finitely many. -/
theorem letterForms_isWordChar : ∀ c ∈ letterForms, isWordChar c = true := by decide

/-- No form of a letter is a blank. The forms are finitely many. -/
theorem letterForms_isBlank : ∀ c ∈ letterForms, isBlank c = false := by decide

/-- A blank is no form of a letter. -/
theorem not_letter_of_isBlank {c : Char} (blank : isBlank c = true) : c ∉ letterForms := by
  intro letter
  rw [letterForms_isBlank c letter] at blank
  cases blank

/-- A blank is no writing of a letter. -/
theorem writes_of_isBlank {capital c : Char} (known : capital ∈ capitalLetters)
    (blank : isBlank c = true) : writes capital c = false := by
  cases written : writes capital c with
  | false => rfl
  | true => exact absurd (mem_letterForms known written) (not_letter_of_isBlank blank)

/-- No character is a writing of two letters. -/
theorem letterForms_single :
    ∀ c ∈ letterForms, (capitalLetters.filter (writes · c)).length = 1 := by
  decide +kernel

/-- A letter is known from any of its writings. There are finitely many writings, and each of them
has been checked to belong to one letter. -/
theorem writes_unique {first second c : Char} (known : first ∈ capitalLetters)
    (other : second ∈ capitalLetters) (written : writes first c = true)
    (also : writes second c = true) : first = second := by
  have single := letterForms_single c (mem_letterForms known written)
  obtain ⟨only, same⟩ := List.length_eq_one_iff.mp single
  have firstListed : first ∈ capitalLetters.filter (writes · c) :=
    List.mem_filter.mpr ⟨known, written⟩
  have secondListed : second ∈ capitalLetters.filter (writes · c) :=
    List.mem_filter.mpr ⟨other, also⟩
  rw [same, List.mem_singleton] at firstListed secondListed
  rw [firstListed, secondListed]

/-! ### Blanks and digits -/

/-- All blanks. -/
def blankForms : List Char :=
  blankRanges.flatMap fun range => (List.range' range.1 (range.2 + 1 - range.1)).map Char.ofNat

/-- Every blank is among the listed ones: the test of a blank is a comparison with each of
them. -/
theorem mem_blankForms {c : Char} (blank : isBlank c = true) : c ∈ blankForms := by
  simp only [isBlank, CharRanges.holds, List.any_eq_true, Bool.and_eq_true, decide_eq_true_eq]
    at blank
  obtain ⟨range, listed, low, high⟩ := blank
  simp only [blankForms, List.mem_flatMap, List.mem_map, List.mem_range'_1]
  exact ⟨range, listed, c.toNat, ⟨low, by omega⟩, Char.ofNat_toNat c⟩

/-- No listed blank is a character of words. -/
theorem blankForms_isWordChar : ∀ c ∈ blankForms, isWordChar c = false := by decide +kernel

/-- A blank is no part of a word. -/
theorem isWordChar_of_isBlank {c : Char} (blank : isBlank c = true) : isWordChar c = false :=
  blankForms_isWordChar c (mem_blankForms blank)

/-- A character of words is no blank. -/
theorem isBlank_of_isWordChar {c : Char} (word : isWordChar c = true) : isBlank c = false := by
  cases blank : isBlank c with
  | false => rfl
  | true => rw [isWordChar_of_isBlank blank] at word; cases word

/-- The ten digits from `nought` on lie in one of the ranges. -/
def CharRanges.holdsDecade (ranges : CharRanges) (nought : Nat) : Bool :=
  ranges.any fun range => decide (range.1 ≤ nought) && decide (nought + 9 ≤ range.2)

/-- Each decade of digits lies in one range of word characters. -/
theorem digitZeros_holdsDecade : ∀ nought ∈ digitZeros,
    (0x80 ≤ nought ∧ nought + 9 < 0x2000 ∧ wordRangesLow.holdsDecade nought = true) ∨
    (0x2000 ≤ nought ∧ nought + 9 < 0x10000 ∧ wordRangesMiddle.holdsDecade nought = true) ∨
    (0x10000 ≤ nought ∧ wordRangesHigh.holdsDecade nought = true) := by
  decide +kernel

/-- A range that holds ten characters in a row holds each of them. -/
theorem CharRanges.holds_of_decade {ranges : CharRanges} {nought : Nat} {c : Char}
    (decade : ranges.holdsDecade nought = true) (low : nought ≤ c.toNat)
    (high : c.toNat < nought + 10) : ranges.holds c = true := by
  simp only [holdsDecade, List.any_eq_true, Bool.and_eq_true, decide_eq_true_eq] at decade
  obtain ⟨range, listed, below, above⟩ := decade
  simp only [holds, List.any_eq_true, Bool.and_eq_true, decide_eq_true_eq]
  exact ⟨range, listed, by omega, by omega⟩

/-- A decimal digit of any script is a word character: the ranges of word characters hold all the
decades of digits. -/
theorem isWordChar_of_isDigit {c : Char} (digit : isDigit c = true) : isWordChar c = true := by
  unfold isDigit digitValue? at digit
  split at digit
  · rename_i ascii
    split at digit
    · rename_i bounds
      have range : c.isDigit = true := by
        simp only [Char.isDigit, Bool.and_eq_true, decide_eq_true_eq, ge_iff_le]
        exact ⟨UInt32.le_iff_toNat_le.mpr bounds.1, UInt32.le_iff_toNat_le.mpr bounds.2⟩
      simp [isWordChar, ascii, isAsciiWordChar, Char.isAlphanum, range]
    · simp at digit
  · rename_i beyond
    rw [Option.isSome_map, List.find?_isSome] at digit
    obtain ⟨nought, listed, bounds⟩ := digit
    simp only [Bool.and_eq_true, decide_eq_true_eq] at bounds
    unfold isWordChar
    rcases digitZeros_holdsDecade nought listed with ⟨_, high, held⟩ | ⟨low, high, held⟩ | ⟨low, held⟩
    · rw [if_neg beyond, if_pos (by omega)]
      exact CharRanges.holds_of_decade held bounds.1 bounds.2
    · rw [if_neg beyond, if_neg (by omega), if_pos (by omega)]
      exact CharRanges.holds_of_decade held bounds.1 bounds.2
    · rw [if_neg beyond, if_neg (by omega), if_neg (by omega)]
      exact CharRanges.holds_of_decade held bounds.1 bounds.2

/-- A digit is no blank, because it is a character of words. -/
theorem isBlank_of_isDigit {c : Char} (digit : isDigit c = true) : isBlank c = false :=
  isBlank_of_isWordChar (isWordChar_of_isDigit digit)

end SqlRenewal
