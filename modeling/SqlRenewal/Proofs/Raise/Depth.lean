import SqlRenewal.Raise.Parenthesis

/-!
# Depth of parentheses

The depth matching of an argument list, seen from the prefixes of a text. A
parenthesis stays unclosed exactly if no prefix of what follows closes more than
it opens; and the text up to the matching one is balanced: no prefix of it closes
more than it opens, and the whole closes as many as it opens.
-/
namespace SqlRenewal

/-- What a character adds to the depth. -/
def weight (c : Char) : Int :=
  if c = '(' then 1 else if c = ')' then -1 else 0

/-- How many more parentheses a text opens than it closes. -/
def balance : Text → Int
  | [] => 0
  | c :: rest => weight c + balance rest

/-- Nothing is opened or closed in an empty text. -/
@[simp]
theorem balance_nil : balance [] = 0 := rfl

/-- Each character adds its weight to the balance of the rest. -/
@[simp]
theorem balance_cons (c : Char) (rest : Text) : balance (c :: rest) = weight c + balance rest := rfl

/-- The balances of two texts add up. -/
@[simp]
theorem balance_append (first second : Text) :
    balance (first ++ second) = balance first + balance second := by
  induction first with
  | nil => simp
  | cons c first inductionHypothesis => simp [inductionHypothesis, Int.add_assoc]

/-- The balance is the difference between the two counts. The induction goes along the text: a
parenthesis moves both sides by one, and no other character moves either. -/
theorem balance_eq_count (text : Text) :
    balance text = (text.count '(' : Int) - text.count ')' := by
  induction text with
  | nil => rfl
  | cons c rest inductionHypothesis =>
    rw [balance_cons, inductionHypothesis, weight, List.count_cons, List.count_cons]
    by_cases opens : c = '('
    · simp only [opens, if_true, beq_self_eq_true]
      rw [if_neg (by decide)]
      omega
    · by_cases closes : c = ')'
      · simp only [closes, if_true, beq_self_eq_true]
        rw [if_neg (by decide), if_neg (by decide)]
        omega
      · simp [opens, closes]

/-- Read from the given depth, the text never falls below zero. -/
def StaysAbove (depth : Int) (text : Text) : Prop :=
  ∀ front, front <+: text → 0 ≤ depth + balance front

/-- No prefix closes more than it opens, and the whole closes as many as it opens. -/
def Balanced (text : Text) : Prop :=
  StaysAbove 0 text ∧ balance text = 0

/-- An empty text stays at the depth at which it begins. -/
@[simp]
theorem staysAbove_nil {depth : Int} : StaysAbove depth [] ↔ 0 ≤ depth := by
  simp [StaysAbove]

/-- A text stays above zero if it begins so, and its rest does at the depth that the first
character leaves. -/
@[simp]
theorem staysAbove_cons {depth : Int} {c : Char} {rest : Text} :
    StaysAbove depth (c :: rest) ↔ 0 ≤ depth ∧ StaysAbove (depth + weight c) rest := by
  constructor
  · intro above
    refine ⟨by simpa using above [] (List.nil_prefix), ?_⟩
    intro front begins
    have bound := above (c :: front) (List.cons_prefix_cons.mpr ⟨rfl, begins⟩)
    rw [balance_cons] at bound
    omega
  · rintro ⟨start, above⟩ front begins
    rcases List.prefix_cons_iff.mp begins with rfl | ⟨shorter, rfl, inner⟩
    · simpa using start
    · have bound := above shorter inner
      rw [balance_cons]
      omega

/-- Two texts stay above zero if the first does, and the second does at the depth that the first
one leaves. -/
theorem staysAbove_append {depth : Int} {first second : Text} :
    StaysAbove depth (first ++ second) ↔
      StaysAbove depth first ∧ StaysAbove (depth + balance first) second := by
  induction first generalizing depth with
  | nil =>
    constructor
    · intro above
      exact ⟨by simpa using above [] List.nil_prefix, by simpa using above⟩
    · intro both
      simpa using both.2
  | cons c first inductionHypothesis =>
    simp [inductionHypothesis, and_assoc, Int.add_assoc]

/-- What stays above zero at one depth does so at any greater one. -/
theorem StaysAbove.mono {depth other : Int} {text : Text} (above : StaysAbove depth text)
    (deeper : depth ≤ other) : StaysAbove other text := by
  intro front begins
  have bound := above front begins
  omega

/-- A text without parentheses does not change the depth. The balance is a sum of weights, and
here all of them are zero. -/
theorem balance_of_weightless {text : Text} (none : ∀ c ∈ text, weight c = 0) :
    balance text = 0 := by
  induction text with
  | nil => rfl
  | cons c rest inductionHypothesis =>
    rw [balance_cons, none c (by simp), inductionHypothesis fun d member => none d (by simp [member])]
    rfl

/-- A text without parentheses is balanced. -/
theorem balanced_of_weightless {text : Text} (none : ∀ c ∈ text, weight c = 0) :
    Balanced text := by
  refine ⟨?_, balance_of_weightless none⟩
  rintro front ⟨rest, rfl⟩
  have zero : balance front = 0 := balance_of_weightless fun c member => none c (by simp [member])
  omega

/-- Balanced texts are balanced together: each of them begins and ends at the same depth. -/
theorem Balanced.append {first second : Text} (left : Balanced first) (right : Balanced second) :
    Balanced (first ++ second) := by
  refine ⟨staysAbove_append.mpr ⟨left.1, ?_⟩, by simp [left.2, right.2]⟩
  rw [left.2]
  exact right.1

/-- A balanced text between two others leaves the depth to them. -/
theorem Balanced.staysAbove_append_iff {depth : Int} {first second : Text}
    (balanced : Balanced first) (start : 0 ≤ depth) :
    StaysAbove depth (first ++ second) ↔ StaysAbove depth second := by
  rw [staysAbove_append, balanced.2, Int.add_zero]
  exact ⟨And.right, fun above => ⟨balanced.1.mono start, above⟩⟩

/-- A parenthesis stays unclosed exactly if the depth never falls below the one
outside of it. -/
theorem closeAt?_eq_none_iff {depth : Int} {text : Text} (start : 0 ≤ depth) :
    closeAt? (depth + 1) text = none ↔ StaysAbove depth text := by
  induction text generalizing depth with
  | nil => simp [closeAt?, start]
  | cons c rest inductionHypothesis =>
    rw [staysAbove_cons]
    simp only [closeAt?]
    by_cases opens : c = '('
    · subst opens
      have deeper := inductionHypothesis (show 0 ≤ depth + 1 by omega)
      simp [deeper, weight, start]
    · by_cases closes : c = ')'
      · subst closes
        have weighs : weight ')' = -1 := rfl
        rw [if_neg opens, if_pos rfl, weighs]
        by_cases outermost : depth + 1 = 1
        · rw [if_pos outermost]
          constructor
          · simp
          · rintro ⟨_, above⟩
            have below := above [] List.nil_prefix
            simp only [balance_nil] at below
            omega
        · have inner := inductionHypothesis (show 0 ≤ depth - 1 by omega)
          rw [Int.sub_add_cancel] at inner
          rw [if_neg outermost, Option.map_eq_none_iff, Int.add_sub_cancel, inner]
          simp [start, Int.sub_eq_add_neg]
      · have same := inductionHypothesis start
        simp [opens, closes, same, weight, start]

/-- The matching parenthesis stands behind a text that brings the depth to one and never below.
The induction goes along the text, for any depth at which it may begin. -/
theorem closeAt?_eq_some_iff {depth : Int} {text : Text} {offset : Nat} (start : 0 ≤ depth) :
    closeAt? (depth + 1) text = some offset ↔ ∃ inside rest, text = inside ++ ')' :: rest ∧
      inside.length = offset ∧ StaysAbove depth inside ∧ depth + balance inside = 0 := by
  induction text generalizing depth offset with
  | nil => simp [closeAt?]
  | cons c rest inductionHypothesis =>
    -- A character that does not close the list is the first one of what it encloses.
    have further {next : Int} (bound : 0 ≤ next) (moves : next = depth + weight c) :
        (closeAt? (next + 1) rest).map (· + 1) = some offset ↔
          ∃ inside behind, c :: rest = c :: inside ++ ')' :: behind ∧
            (c :: inside).length = offset ∧ StaysAbove depth (c :: inside) ∧
            depth + balance (c :: inside) = 0 := by
      rw [Option.map_eq_some_iff]
      constructor
      · rintro ⟨inner, found, rfl⟩
        obtain ⟨inside, behind, rfl, rfl, above, level⟩ := (inductionHypothesis bound).mp found
        refine ⟨inside, behind, rfl, rfl, ?_, by rw [balance_cons]; omega⟩
        rw [staysAbove_cons, ← moves]
        exact ⟨start, above⟩
      · rintro ⟨inside, behind, same, rfl, above, level⟩
        rw [staysAbove_cons, ← moves] at above
        rw [balance_cons] at level
        refine ⟨inside.length, (inductionHypothesis bound).mpr ?_, rfl⟩
        exact ⟨inside, behind, by simpa using same, rfl, above.2, by omega⟩
    have shape : (∃ inside behind, c :: rest = inside ++ ')' :: behind ∧ inside.length = offset ∧
          StaysAbove depth inside ∧ depth + balance inside = 0) ↔
        (c = ')' ∧ offset = 0 ∧ depth = 0) ∨
          ∃ inside behind, c :: rest = c :: inside ++ ')' :: behind ∧
            (c :: inside).length = offset ∧ StaysAbove depth (c :: inside) ∧
            depth + balance (c :: inside) = 0 := by
      constructor
      · rintro ⟨inside, behind, same, rfl, above, level⟩
        cases inside with
        | nil =>
          obtain ⟨rfl, _⟩ := List.cons.inj same
          exact .inl ⟨rfl, rfl, by simpa using level⟩
        | cons d inside =>
          obtain ⟨rfl, _⟩ := List.cons.inj same
          exact .inr ⟨inside, behind, same, rfl, above, level⟩
      · rintro (⟨rfl, rfl, rfl⟩ | ⟨inside, behind, found⟩)
        · exact ⟨[], rest, rfl, rfl, by simp, by simp⟩
        · exact ⟨c :: inside, behind, found⟩
    rw [shape]
    simp only [closeAt?]
    by_cases opens : c = '('
    · have other : c ≠ ')' := by rw [opens]; decide
      rw [if_pos opens, further (show 0 ≤ depth + 1 by omega) (by simp [weight, opens])]
      simp [other]
    · rw [if_neg opens]
      by_cases closes : c = ')'
      · rw [if_pos closes]
        by_cases outermost : depth + 1 = 1
        · have zero : depth = 0 := by omega
          rw [if_pos outermost]
          constructor
          · intro same
            exact .inl ⟨closes, (Option.some.inj same).symm, zero⟩
          · rintro (⟨_, rfl, _⟩ | ⟨inside, behind, _, _, above, _⟩)
            · rfl
            · have below := (staysAbove_cons.mp above).2 [] List.nil_prefix
              simp only [closes, zero, balance_nil] at below
              exact absurd below (by decide)
        · rw [if_neg outermost, show depth + 1 - 1 = depth - 1 + 1 by omega,
            further (show 0 ≤ depth - 1 by omega) (by simp [weight, closes, Int.sub_eq_add_neg])]
          simp [show depth ≠ 0 by omega]
      · rw [if_neg closes, further start (by simp [weight, opens, closes])]
        simp [closes]

/-- An argument list is closed by the parenthesis behind a balanced text. -/
theorem closeAt?_one_eq_some_iff {text : Text} {offset : Nat} :
    closeAt? 1 text = some offset ↔
      ∃ inside rest, text = inside ++ ')' :: rest ∧ inside.length = offset ∧ Balanced inside := by
  have fromZero : closeAt? (0 + 1) text = some offset ↔ _ := closeAt?_eq_some_iff (Int.le_refl 0)
  simpa [Balanced] using fromZero

/-- A parenthesis is not closed in a text that never falls below the depth inside. -/
theorem closeAt?_one_eq_none_iff {text : Text} :
    closeAt? 1 text = none ↔ StaysAbove 0 text :=
  closeAt?_eq_none_iff (Int.le_refl 0)

/-- Whether a given text is balanced can be computed. -/
theorem balanced_iff_closeAt? {text : Text} :
    Balanced text ↔ closeAt? 1 text = none ∧ balance text = 0 := by
  rw [closeAt?_one_eq_none_iff, Balanced]

end SqlRenewal
