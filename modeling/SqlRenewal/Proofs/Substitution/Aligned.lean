import SqlRenewal.Proofs.Substitution.Swap
import SqlRenewal.Proofs.Raise.Occurrence

/-!
# Texts before and after a rule

An application of a rule keeps characters and swaps parts. `Aligned` lines up the
text before with the text after in this way; what is asked of a kept character and
of a swap are its parameters. The characters before both texts go along, since
words are judged by them.

Characters that no swap begins with are kept wherever they are met, on either side.
A swap closes what it opens, so depth is the same on both sides.
-/
namespace SqlRenewal

/-- The second text is the first one with some parts swapped. -/
inductive Aligned (kept : Option Char → Option Char → Text → Text → Prop)
    (swapped : Option Char → Text → Text → Prop) :
    Option Char → Option Char → Text → Text → Prop where
  | nil {before before' : Option Char} : Aligned kept swapped before before' [] []
  | keep {before before' : Option Char} {c : Char} {old new : Text}
      (faithful : kept before before' (c :: old) (c :: new))
      (later : Aligned kept swapped (some c) (some c) old new) :
      Aligned kept swapped before before' (c :: old) (c :: new)
  | swap {before before' : Option Char} {taken put old new : Text}
      (swap : swapped before taken put)
      (later : Aligned kept swapped (lastOf before taken) (lastOf before' put) old new) :
      Aligned kept swapped before before' (taken ++ old) (put ++ new)

section

variable {kept : Option Char → Option Char → Text → Text → Prop}
  {swapped : Option Char → Text → Text → Prop} {before before' : Option Char} {old new : Text}

/-- Characters that no swap puts do not become more: those that are kept stay, and a swap can only
take some away. The induction goes along the alignment. -/
theorem Aligned.countP_le (aligned : Aligned kept swapped before before' old new)
    (swaps : ∀ {b taken put}, swapped b taken put → Swap true b taken put) {p : Char → Bool}
    (never : ∀ c ∈ putForms, p c = false) : new.countP p ≤ old.countP p := by
  induction aligned with
  | nil => exact Nat.le_refl _
  | keep faithful later inductionHypothesis =>
    rw [List.countP_cons, List.countP_cons]
    omega
  | @swap before before' taken put old new swap later inductionHypothesis =>
    have none : put.countP p = 0 := by
      apply List.countP_eq_zero.mpr
      intro c member
      simp [never c ((swaps swap).put_mem c member)]
    rw [List.countP_append, List.countP_append, none]
    omega

/-- Both texts agree up to a place where neither has a blank, a digit or an opening
parenthesis. -/
theorem Aligned.akin (aligned : Aligned kept swapped before before' old new)
    (swaps : ∀ {b taken put}, swapped b taken put → Swap true b taken put) : Akin old new := by
  induction aligned with
  | nil => exact .inl rfl
  | keep faithful later inductionHypothesis => exact inductionHypothesis.cons _
  | @swap before before' taken put old new swap later inductionHypothesis =>
    have solid : ∀ c ∈ openingForms, isSolid c = true := by decide
    obtain ⟨c, more, rfl, letter⟩ := (swaps swap).put_head
    obtain ⟨d, others, rfl, opening⟩ := (swaps swap).taken_head
    exact .inr ⟨[], d, c, others ++ old, more ++ new, rfl, rfl, solid d opening,
      solid c (List.mem_append_left _ letter)⟩

/-- What stays above a depth before the rule stays above it afterwards. Kept characters count as
before, and both sides of a swap are balanced; the induction goes along the alignment. -/
theorem Aligned.staysAbove (aligned : Aligned kept swapped before before' old new)
    (swaps : ∀ {b taken put}, swapped b taken put → Swap true b taken put) {depth : Int}
    (above : StaysAbove depth old) : StaysAbove depth new := by
  induction aligned generalizing depth with
  | nil => exact above
  | keep faithful later inductionHypothesis =>
    rw [staysAbove_cons] at above ⊢
    exact ⟨above.1, inductionHypothesis above.2⟩
  | swap swap later inductionHypothesis =>
    have start : 0 ≤ depth := by simpa using above [] List.nil_prefix
    rw [(swaps swap).taken_balanced.staysAbove_append_iff start] at above
    rw [(swaps swap).put_balanced.staysAbove_append_iff start]
    exact inductionHypothesis above

/-- Aligned texts have equal balances: kept parts are equal, and no swap changes the balance. -/
theorem Aligned.balance_eq (aligned : Aligned kept swapped before before' old new)
    (swaps : ∀ {b taken put}, swapped b taken put → Swap true b taken put) :
    balance new = balance old := by
  induction aligned with
  | nil => rfl
  | keep faithful later inductionHypothesis =>
    rw [balance_cons, balance_cons, inductionHypothesis]
  | swap swap later inductionHypothesis =>
    rw [balance_append, balance_append, (swaps swap).taken_balanced.2, (swaps swap).put_balanced.2,
      inductionHypothesis]

/-- Characters other than letters at the beginning of the new text were kept, as long as no swap
puts one of them first. The induction is on these characters. -/
theorem Aligned.kept_of_new {front : Text}
    (aligned : Aligned kept swapped before before' old (front ++ new))
    (swaps : ∀ {b taken put}, swapped b taken put → Swap true b taken put)
    (none : ∀ c ∈ front, c ∉ letterForms) :
    ∃ old', old = front ++ old' ∧
      Aligned kept swapped (lastOf before front) (lastOf before' front) old' new := by
  induction front generalizing before before' old with
  | nil => exact ⟨old, rfl, by simpa using aligned⟩
  | cons c front inductionHypothesis =>
    generalize whole : c :: front ++ new = text at aligned
    cases aligned with
    | nil => simp at whole
    | keep faithful later =>
      obtain ⟨rfl, rfl⟩ := List.cons.inj whole
      obtain ⟨old', rfl, aligned⟩ := inductionHypothesis later fun d member => none d (by simp [member])
      exact ⟨old', rfl, by simpa using aligned⟩
    | swap swap later =>
      obtain ⟨d, more, rfl, letter⟩ := (swaps swap).put_head
      obtain ⟨rfl, _⟩ := List.cons.inj whole
      exact absurd letter (none c (by simp))

/-- Characters at the beginning of the old text were kept if swaps begin with others. The
induction is on these characters. -/
theorem Aligned.kept_of_unopened {front : Text}
    (aligned : Aligned kept swapped before before' (front ++ old) new)
    (unopened : ∀ {b taken put}, swapped b taken put → ∃ c rest, taken = c :: rest ∧ c ∉ front) :
    ∃ new', new = front ++ new' ∧
      Aligned kept swapped (lastOf before front) (lastOf before' front) old new' := by
  induction front generalizing before before' new with
  | nil => exact ⟨new, rfl, by simpa using aligned⟩
  | cons c front inductionHypothesis =>
    generalize whole : c :: front ++ old = text at aligned
    cases aligned with
    | nil => simp at whole
    | keep faithful later =>
      obtain ⟨rfl, rfl⟩ := List.cons.inj whole
      obtain ⟨new', rfl, aligned⟩ := inductionHypothesis later fun swap => by
        obtain ⟨d, more, same, outside⟩ := unopened swap
        exact ⟨d, more, same, fun member => outside (List.mem_cons_of_mem _ member)⟩
      exact ⟨new', rfl, by simpa using aligned⟩
    | swap swap later =>
      obtain ⟨d, more, rfl, outside⟩ := unopened swap
      obtain ⟨rfl, _⟩ := List.cons.inj whole
      exact absurd List.mem_cons_self outside

/-- Characters at the beginning of the old text that no swap begins with were kept. -/
theorem Aligned.kept_of_old {front : Text}
    (aligned : Aligned kept swapped before before' (front ++ old) new)
    (swaps : ∀ {b taken put}, swapped b taken put → Swap true b taken put)
    (none : ∀ c ∈ front, c ∉ openingForms) :
    ∃ new', new = front ++ new' ∧
      Aligned kept swapped (lastOf before front) (lastOf before' front) old new' := by
  apply aligned.kept_of_unopened
  intro b taken put swap
  obtain ⟨c, rest, same, opening⟩ := (swaps swap).taken_head
  exact ⟨c, rest, same, fun member => none c member opening⟩

/-- Inside a word, letters of the old text were kept: a swap of words begins where a word does,
and a join begins with no letter. The induction is on the letters. -/
theorem Aligned.letters_of_old {word : Text}
    (aligned : Aligned kept swapped before before' (word ++ old) new)
    (swaps : ∀ {b taken put}, swapped b taken put → Swap true b taken put)
    (within : endsWord before = false) (letters : ∀ c ∈ word, c ∈ letterForms) :
    ∃ new', new = word ++ new' ∧
      Aligned kept swapped (lastOf before word) (lastOf before' word) old new' := by
  induction word generalizing before before' new with
  | nil => exact ⟨new, rfl, by simpa using aligned⟩
  | cons c word inductionHypothesis =>
    generalize whole : c :: word ++ old = text at aligned
    cases aligned with
    | nil => simp at whole
    | keep faithful later =>
      obtain ⟨rfl, rfl⟩ := List.cons.inj whole
      have isWord := letterForms_isWordChar c (letters c (by simp))
      obtain ⟨new', rfl, aligned⟩ := inductionHypothesis later (by simp [endsWord, isWord])
        fun d member => letters d (by simp [member])
      exact ⟨new', rfl, by simpa using aligned⟩
    | swap swap later =>
      rcases swaps swap with wordSwap | ⟨_, join⟩
      · rw [wordSwap.opened] at within
        cases within
      · have letter := letters c (by simp)
        cases join with
        | left =>
          obtain ⟨rfl, _⟩ := List.cons.inj whole
          exact absurd letter (by decide)
        | right =>
          obtain ⟨rfl, _⟩ := List.cons.inj whole
          exact absurd letter (by decide)

end

end SqlRenewal
