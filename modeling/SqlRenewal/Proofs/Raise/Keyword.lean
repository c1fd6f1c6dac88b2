import SqlRenewal.Proofs.Text.Words

/-!
# Where the legacy keyword begins

The search for the next keyword and the count of keywords, both in terms of the
parts of a text that lack it.
-/
namespace SqlRenewal

/-- The keyword is spelled with letters whose forms are known. -/
theorem raiseWord_known : raiseWord ⊆ capitalLetters := by decide

/-- There is no next keyword exactly if the whole text lacks it. Both look at every place with the
character before it, in the same recursion. -/
theorem firstRaise?_eq_none_iff {before : Option Char} {text : Text} :
    firstRaise? before text = none ↔ Lacks raiseWord before text [] := by
  induction text generalizing before with
  | nil => simp [firstRaise?, Lacks]
  | cons c rest inductionHypothesis =>
    simp only [firstRaise?, Lacks, List.append_nil, ← startsRaise_eq]
    split
    · simp_all
    · simp_all

/-- The search passes over a part that lacks the keyword, and goes on with the last character of
that part before it. -/
theorem firstRaise?_append {before : Option Char} {front rest : Text}
    (lacking : Lacks raiseWord before front rest) :
    firstRaise? before (front ++ rest) =
      (firstRaise? (lastOf before front) rest).map (· + front.length) := by
  induction front generalizing before with
  | nil => simp
  | cons c front inductionHypothesis =>
    obtain ⟨absent, later⟩ := lacking
    rw [← startsRaise_eq] at absent
    simp only [List.cons_append, firstRaise?, absent, inductionHypothesis later, lastOf_cons]
    cases firstRaise? (lastOf (some c) front) rest <;> simp [Nat.add_assoc]

/-- The next keyword begins where the part in front of it ends, and there is none in that part.
The induction goes along the text, with the character before it. -/
theorem firstRaise?_eq_some_iff {before : Option Char} {text : Text} {position : Nat} :
    firstRaise? before text = some position ↔ ∃ front rest, text = front ++ rest ∧
      front.length = position ∧ Lacks raiseWord before front rest ∧
      startsWord raiseWord (lastOf before front) rest = true := by
  constructor
  · intro found
    induction text generalizing before position with
    | nil => simp [firstRaise?] at found
    | cons c text inductionHypothesis =>
      simp only [firstRaise?] at found
      split at found
      · rename_i starts
        cases found
        exact ⟨[], c :: text, rfl, rfl, trivial, starts⟩
      · rename_i absent
        obtain ⟨inner, later, rfl⟩ := Option.map_eq_some_iff.mp found
        obtain ⟨front, rest, rfl, rfl, lacking, starts⟩ := inductionHypothesis later
        refine ⟨c :: front, rest, rfl, rfl, ⟨?_, lacking⟩, by simpa using starts⟩
        simpa [startsRaise_eq] using absent
  · rintro ⟨front, rest, rfl, rfl, lacking, starts⟩
    rw [firstRaise?_append lacking]
    cases rest with
    | nil => simp [startsWord, dropWord?, dropKeyword?, raiseWord] at starts
    | cons c rest => simp [firstRaise?, startsRaise_eq, starts]

/-- The keyword is counted nowhere exactly if the text lacks it: a sum is zero if every summand
is. -/
theorem countRaises_eq_zero_iff {before : Option Char} {text : Text} :
    countRaises before text = 0 ↔ Lacks raiseWord before text [] := by
  induction text generalizing before with
  | nil => simp [countRaises, Lacks]
  | cons c rest inductionHypothesis =>
    rw [countRaises, Lacks, List.append_nil, ← startsRaise_eq, ← inductionHypothesis]
    by_cases starts : startsRaise before (c :: rest) = true
    · simp [starts]
    · simp [starts]

/-- A part that lacks the keyword does not count. That it lacks it is said with the rest behind
it, since a keyword may begin in the part and end later. -/
theorem countRaises_append_of_lacks {before : Option Char} {front rest : Text}
    (lacking : Lacks raiseWord before front rest) :
    countRaises before (front ++ rest) = countRaises (lastOf before front) rest := by
  induction front generalizing before with
  | nil => simp
  | cons c front inductionHypothesis =>
    obtain ⟨absent, later⟩ := lacking
    rw [← startsRaise_eq] at absent
    simp [countRaises, absent, inductionHypothesis later]

/-- Where no word goes over the place between two texts, their keywords add up. -/
theorem countRaises_append {before : Option Char} {first second : Text}
    (seam : Seam before first second) :
    countRaises before (first ++ second) =
      countRaises before first + countRaises (lastOf before first) second := by
  induction first generalizing before with
  | nil => simp [countRaises]
  | cons c first inductionHypothesis =>
    rw [List.cons_append, countRaises, countRaises, startsRaise_eq, startsRaise_eq,
      startsWord_append raiseWord_known seam, inductionHypothesis seam.of_cons, lastOf_cons,
      Nat.add_assoc]

/-- The end of a text has no more keywords than the whole, since counting goes from the front and
never subtracts. -/
theorem countRaises_le_append (before : Option Char) (front rest : Text) :
    countRaises (lastOf before front) rest ≤ countRaises before (front ++ rest) := by
  induction front generalizing before with
  | nil => simp
  | cons c front inductionHypothesis =>
    have later := inductionHypothesis (some c)
    simp only [List.cons_append, countRaises, lastOf_cons]
    omega

/-- Behind a word character there are no more keywords than behind another one. Only the first
place of the text looks at that character. -/
theorem countRaises_mono {before other : Option Char}
    (weaker : endsWord before = true → endsWord other = true) (text : Text) :
    countRaises before text ≤ countRaises other text := by
  cases text with
  | nil => simp [countRaises]
  | cons c rest =>
    simp only [countRaises, startsRaise]
    by_cases opened : endsWord before = true
    · simp [opened, weaker opened]
    · simp [opened]

end SqlRenewal
