import SqlRenewal.Text.Integer

/-!
# Numerals

A text writes an integer if an optional sign stands in front of decimal digits, and of
nothing else. Exactly such texts are read as integer literals, blanks around them left
aside, unless they have more digits than are converted.

Writing an integer in decimal digits and reading it again gives the integer back, and the
value of a numeral never needs more digits than the numeral has.
-/
namespace SqlRenewal

/-! ### What a numeral is -/

/-- What may stand in front of the digits, and whether it negates their value. -/
inductive Sign : Text → Bool → Prop where
  | none : Sign [] false
  | plus : Sign ['+'] false
  | minus : Sign ['-'] true

/-- The text is the numeral: a sign, and one character for each digit. -/
def Numeral.WrittenAs (numeral : Numeral) (text : Text) : Prop :=
  ∃ sign written, text = sign ++ written ∧ Sign sign numeral.negative ∧ written ≠ [] ∧
    written.map digitValue? = numeral.digits.map some

/-- The text is an integer literal with the given value. -/
def Denotes (text : Text) (value : Int) : Prop :=
  ∃ numeral : Numeral, numeral.WrittenAs text ∧ numeral.toInt = value

/-! ### Recognising numerals -/

/-- Digits are read off a text that is not empty and made of nothing else. The induction goes
along the text, whose last digit stands alone. -/
theorem Numeral.plainDigits?_eq_some_iff {text : Text} {digits : List Nat} :
    Numeral.plainDigits? text = some digits ↔
      text ≠ [] ∧ text.map digitValue? = digits.map some := by
  induction text generalizing digits with
  | nil => simp [plainDigits?]
  | cons c rest inductionHypothesis =>
    cases rest with
    | nil =>
      cases digits with
      | nil => simp [plainDigits?]
      | cons digit digits => cases value : digitValue? c <;> simp [plainDigits?, value]
    | cons d rest =>
      simp only [plainDigits?, bind, Option.bind_eq_some_iff, inductionHypothesis]
      cases digits <;> simp

/-- A sign is no digit. -/
theorem digitValue?_sign : digitValue? '-' = none ∧ digitValue? '+' = none := by decide

/-- The digits of a numeral begin behind its sign. Without one the first character is a digit, and
no sign is. -/
theorem Numeral.splitSign_eq {sign written : Text} {negative : Bool} {digits : List Nat}
    (signed : Sign sign negative) (digital : written.map digitValue? = digits.map some) :
    Numeral.splitSign (sign ++ written) = (negative, written) := by
  cases signed with
  | plus => rfl
  | minus => rfl
  | none =>
    rw [List.nil_append]
    fun_cases Numeral.splitSign written with
    | case1 rest => cases digits <;> simp [digitValue?_sign] at digital
    | case2 rest => cases digits <;> simp [digitValue?_sign] at digital
    | case3 => rfl

/-- The part in front of the digits is a sign. -/
theorem Numeral.splitSign_sign (text : Text) :
    ∃ sign, text = sign ++ (Numeral.splitSign text).2 ∧ Sign sign (Numeral.splitSign text).1 := by
  fun_cases Numeral.splitSign text with
  | case1 rest => exact ⟨['-'], rfl, .minus⟩
  | case2 rest => exact ⟨['+'], rfl, .plus⟩
  | case3 => exact ⟨[], rfl, .none⟩

/-- The reader of numerals accepts exactly the texts as which numerals are written, and gives the
one numeral that is written so. -/
theorem Numeral.ofText?_eq_some_iff {text : Text} {numeral : Numeral} :
    Numeral.ofText? text = some numeral ↔ numeral.WrittenAs text := by
  obtain ⟨negative, digits⟩ := numeral
  constructor
  · intro found
    obtain ⟨sign, same, signed⟩ := Numeral.splitSign_sign text
    obtain ⟨others, plain, numbered⟩ := Option.map_eq_some_iff.mp found
    cases numbered
    exact ⟨sign, _, same, signed, Numeral.plainDigits?_eq_some_iff.mp plain⟩
  · rintro ⟨sign, written, rfl, signed, digital⟩
    rw [Numeral.ofText?, Numeral.splitSign_eq signed digital.2]
    simp [Numeral.plainDigits?_eq_some_iff.mpr digital]

/-- There are digits in every numeral. -/
theorem Numeral.WrittenAs.ne_nil {numeral : Numeral} {text : Text}
    (written : numeral.WrittenAs text) : text ≠ [] := by
  rintro rfl
  obtain ⟨sign, digits, same, _, some, _⟩ := written
  exact some (List.append_eq_nil_iff.mp same.symm).2

/-- A text is one numeral at most. -/
theorem Numeral.WrittenAs.unique {text : Text} {first second : Numeral}
    (one : first.WrittenAs text) (other : second.WrittenAs text) : first = second := by
  rw [← Numeral.ofText?_eq_some_iff] at one other
  exact Option.some.inj (one.symm.trans other)

/-- A literal has one value. -/
theorem Denotes.unique {text : Text} {first second : Int} (one : Denotes text first)
    (other : Denotes text second) : first = second := by
  obtain ⟨numeral, written, rfl⟩ := one
  obtain ⟨_, again, rfl⟩ := other
  rw [written.unique again]

/-! ### Reading literals -/

/-- An argument is no number exactly if it is written as no numeral, blanks around it aside. -/
theorem readLiteral_eq_none_iff {text : Text} :
    readLiteral text = .ok none ↔ ∀ numeral : Numeral, ¬ numeral.WrittenAs (Text.trim text) := by
  simp only [readLiteral, ← Numeral.ofText?_eq_some_iff]
  cases Numeral.ofText? (Text.trim text) with
  | none => simp
  | some numeral =>
    simp only [Numeral.value]
    split <;> simp [Except.map]

/-- An argument has a value exactly if it is written as a numeral that is not too long, and the
value is that of the numeral. -/
theorem readLiteral_eq_some_iff {text : Text} {value : Int} :
    readLiteral text = .ok (some value) ↔ ∃ numeral : Numeral,
      numeral.WrittenAs (Text.trim text) ∧ numeral.digits.length ≤ digitLimit ∧
        numeral.toInt = value := by
  simp only [readLiteral, ← Numeral.ofText?_eq_some_iff]
  cases Numeral.ofText? (Text.trim text) with
  | none => simp
  | some numeral =>
    simp only [Numeral.value, Option.some.injEq, exists_eq_left']
    split
    · simp [Except.map]
      omega
    · simp [Except.map]
      omega

/-- What is read as a literal denotes its value. -/
theorem readLiteral_denotes {text : Text} {value : Int} (literal : readLiteral text = .ok (some value)) :
    Denotes (Text.trim text) value := by
  obtain ⟨numeral, written, _, same⟩ := readLiteral_eq_some_iff.mp literal
  exact ⟨numeral, written, same⟩

/-- What is read as something else denotes no integer. -/
theorem not_denotes_of_readLiteral {text : Text} (other : readLiteral text = .ok none) (value : Int) :
    ¬ Denotes (Text.trim text) value := by
  rintro ⟨numeral, written, _⟩
  exact readLiteral_eq_none_iff.mp other numeral written

/-- An argument is refused exactly if it is written as a numeral that is too long; the refusal
says how long. -/
theorem readLiteral_eq_error_iff {text : Text} {overflow : DigitOverflow} :
    readLiteral text = .error overflow ↔ ∃ numeral : Numeral,
      numeral.WrittenAs (Text.trim text) ∧ digitLimit < numeral.digits.length ∧
        overflow = ⟨numeral.digits.length⟩ := by
  simp only [readLiteral, ← Numeral.ofText?_eq_some_iff]
  cases Numeral.ofText? (Text.trim text) with
  | none => simp
  | some numeral =>
    simp only [Numeral.value, Option.some.injEq, exists_eq_left']
    split
    · simp [Except.map, eq_comm]
      omega
    · simp [Except.map]
      omega

/-- A text is refused only for a numeral with too many digits; whatever is no numeral is read as
something else. -/
theorem exists_readLiteral_eq_ok_iff {text : Text} :
    (∃ literal, readLiteral text = .ok literal) ↔
      ∀ numeral : Numeral, numeral.WrittenAs (Text.trim text) → numeral.digits.length ≤ digitLimit := by
  cases literal : readLiteral text with
  | error overflow =>
    obtain ⟨numeral, written, long, _⟩ := readLiteral_eq_error_iff.mp literal
    simp only [reduceCtorEq, exists_false, false_iff]
    intro short
    exact absurd (short numeral written) (Nat.not_le_of_lt long)
  | ok value =>
    simp only [Except.ok.injEq, exists_eq', true_iff]
    intro numeral written
    refine Nat.le_of_not_lt fun long => ?_
    have refused := readLiteral_eq_error_iff.mpr ⟨numeral, written, long, rfl⟩
    rw [literal] at refused
    cases refused

/-! ### Values and their digits -/

/-- A digit stands for a number below ten, in whichever script it is written: each script has its
ten digits in a row. -/
theorem digitValue?_lt {c : Char} {digit : Nat} (value : digitValue? c = some digit) : digit < 10 := by
  unfold digitValue? at value
  split at value
  · split at value
    · cases value
      omega
    · cases value
  · obtain ⟨nought, found, rfl⟩ := Option.map_eq_some_iff.mp value
    have bounds := List.find?_some found
    simp only [Bool.and_eq_true, decide_eq_true_eq] at bounds
    omega

/-- One more digit makes the decimal writing longer by one at most. Division by ten takes off the
digit that was added. -/
theorem natDigits_length_step (n : Nat) {digit : Nat} (small : digit < 10) :
    (natDigits (10 * n + digit)).length ≤ (natDigits n).length + 1 := by
  rw [natDigits]
  split
  · simp
  · have tenth : (10 * n + digit) / 10 = n := by omega
    rw [tenth]
    simp

/-- A number that is read from digits has at most as many digits as were read: each of them
multiplies by ten and adds less than that. -/
theorem natDigits_foldl_length_le {digits : List Nat} (small : ∀ digit ∈ digits, digit < 10) (n : Nat) :
    (natDigits (digits.foldl (fun value digit => 10 * value + digit) n)).length ≤
      (natDigits n).length + digits.length := by
  induction digits generalizing n with
  | nil => simp
  | cons digit digits inductionHypothesis =>
    have first := natDigits_length_step n (small digit (by simp))
    have later := inductionHypothesis (fun other member => small other (by simp [member]))
      (10 * n + digit)
    simp only [List.foldl_cons, List.length_cons]
    omega

/-- The number of digits of an integer. -/
def digitCount (value : Int) : Nat :=
  (natDigits value.natAbs).length

/-- Leading zeros aside, a numeral has the digits of its value, so the value has no more digits
than were written. -/
theorem Numeral.WrittenAs.digitCount_le {numeral : Numeral} {text : Text}
    (written : numeral.WrittenAs text) : digitCount numeral.toInt ≤ numeral.digits.length := by
  obtain ⟨negative, digits⟩ := numeral
  obtain ⟨sign, characters, _, _, some, digital⟩ := written
  have small : ∀ digit ∈ digits, digit < 10 := by
    intro digit member
    have listed : Option.some digit ∈ characters.map digitValue? := by
      rw [digital]
      exact List.mem_map_of_mem member
    obtain ⟨c, _, value⟩ := List.mem_map.mp listed
    exact digitValue?_lt value
  have same : (Numeral.toInt ⟨negative, digits⟩).natAbs = magnitude digits := by
    cases negative <;> simp [Numeral.toInt]
  rw [digitCount, same]
  cases digits with
  | nil => exact absurd (List.map_eq_nil_iff.mp digital) some
  | cons digit digits =>
    have single : (natDigits digit).length = 1 := by
      rw [natDigits, if_pos (small digit (by simp))]
      rfl
    have others : ∀ other ∈ digits, other < 10 :=
      fun other member => small other (List.mem_cons_of_mem _ member)
    have bound := natDigits_foldl_length_le others digit
    rw [single] at bound
    simp only [magnitude, List.foldl_cons, List.length_cons, Nat.mul_zero, Nat.zero_add]
    omega

/-- The value of a literal that is read has no more digits than are converted. -/
theorem readLiteral_digitCount {text : Text} {value : Int}
    (literal : readLiteral text = .ok (some value)) : digitCount value ≤ digitLimit := by
  obtain ⟨numeral, written, short, rfl⟩ := readLiteral_eq_some_iff.mp literal
  exact Nat.le_trans written.digitCount_le short

/-! ### Written integers are literals -/

/-- The ten plain digits have the values from which they are made. -/
theorem digitValue?_ofNat : ∀ digit < 10, digitValue? (Char.ofNat (0x30 + digit)) = some digit := by
  decide

/-- The digits of a written number are its own. The induction follows the writing: the last digit
is the remainder by ten, and those before it are the digits of the quotient. -/
theorem natDigits_digits (n : Nat) : ∃ digits, natDigits n ≠ [] ∧
    (natDigits n).map digitValue? = digits.map some ∧ Numeral.magnitude digits = n := by
  induction n using natDigits.induct with
  | case1 n small =>
    refine ⟨[n], ?_⟩
    rw [natDigits, if_pos small]
    simp [digitValue?_ofNat n small, Numeral.magnitude]
  | case2 n large inductionHypothesis =>
    obtain ⟨digits, _, digital, same⟩ := inductionHypothesis
    refine ⟨digits ++ [n % 10], ?_⟩
    rw [natDigits, if_neg large]
    refine ⟨by simp, ?_, ?_⟩
    · simp [digital, digitValue?_ofNat (n % 10) (by omega)]
    · rw [Numeral.magnitude] at same
      rw [Numeral.magnitude, List.foldl_append, same]
      simp only [List.foldl_cons, List.foldl_nil]
      omega

/-- The decimal writing of an integer denotes it: a negative one has a sign in front of the digits
of its amount. -/
theorem denotes_intText (value : Int) : Denotes (intText value) value := by
  cases value with
  | ofNat n =>
    obtain ⟨digits, some, digital, same⟩ := natDigits_digits n
    exact ⟨⟨false, digits⟩, ⟨[], _, rfl, .none, some, digital⟩, by simp [Numeral.toInt, same]⟩
  | negSucc n =>
    obtain ⟨digits, some, digital, same⟩ := natDigits_digits (n + 1)
    refine ⟨⟨true, digits⟩, ⟨['-'], _, rfl, .minus, some, digital⟩, ?_⟩
    simp [Numeral.toInt, same, Int.negSucc_eq]

end SqlRenewal
