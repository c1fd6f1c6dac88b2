import SqlRenewal.Proofs.Substitution.Aligned

/-!
# Words after a rule were words before

A rule may destroy words, where an outer join is written out beside one, but it
makes none of those that are looked for: a sought word that stands in the new text
as a word of its own was kept letter by letter, and stood in the old text in the
same way. Without joins the converse holds too.
-/
namespace SqlRenewal

/-- What the character before a place in the new text says of the one in the old
text. A blank was a blank. Where the text does not go on with a blank, an end of a
word was one; and without joins it still is. -/
structure Follows (joins : Bool) (before before' : Option Char) (old : Text) : Prop where
  blank : isBlankBeside before' = true → isBlankBeside before = true
  opened : isBlankBeside old.head? = false → endsWord before' = true → endsWord before = true
  closed : joins = false → endsWord before = true → endsWord before' = true

/-- A text follows itself. -/
theorem Follows.refl (joins : Bool) (before : Option Char) (old : Text) :
    Follows joins before before old :=
  ⟨id, fun _ => id, fun _ => id⟩

/-- The texts before and after an application of a rule. -/
abbrev Renewed (joins : Bool) : Option Char → Option Char → Text → Text → Prop :=
  Aligned (fun before before' old _ => Follows joins before before' old) (Swap joins)

/-- Text that a rule does not touch is kept in front of what it renews, character by character.
Only the first character has to follow the one before, the others follow by themselves. -/
theorem Renewed.append {joins : Bool} {before before' : Option Char} {front old new : Text}
    (follows : Follows joins before before' (front ++ old))
    (later : Follows joins (lastOf before front) (lastOf before' front) old →
      Renewed joins (lastOf before front) (lastOf before' front) old new) :
    Renewed joins before before' (front ++ old) (front ++ new) := by
  induction front generalizing before before' with
  | nil => simpa using later (by simpa using follows)
  | cons c front inductionHypothesis =>
    refine .keep follows (inductionHypothesis (Follows.refl _ _ _) ?_)
    simpa using later

/-- The end of a word in the new text was the end of a word in the old one. -/
theorem Renewed.endsWord_head {joins : Bool} {before before' : Option Char} {old new : Text}
    (renewed : Renewed joins before before' old new) (closed : endsWord new.head? = true) :
    endsWord old.head? = true := by
  cases renewed with
  | nil => rfl
  | keep faithful later => exact closed
  | swap swap later =>
    obtain ⟨c, more, rfl, letter⟩ := swap.put_head
    simp [endsWord, letterForms_isWordChar c letter] at closed

/-- The rest of a sought word was kept, at its beginning or inside it. A swap that stood there
would have put or taken a part of the word, and none of them does. The induction is on the letters
that are still to be read. -/
theorem Renewed.word_drop {joins : Bool} {before before' : Option Char} {old new rest : Text}
    (renewed : Renewed joins before before' old new) {capitals : List Char}
    (sought : capitals ∈ soughtWords) {n : Nat}
    (placed : (n = 0 ∧ endsWord before' = true) ∨ (0 < n ∧ endsWord before = false))
    (read : dropWord? (capitals.drop n) new = some rest) :
    ∃ word old', old = word ++ old' ∧ new = word ++ rest ∧ Spells (capitals.drop n) word ∧
      endsWord old'.head? = true ∧
      Renewed joins (lastOf before word) (lastOf before' word) old' rest := by
  -- Induction on the letters that are still to be read.
  induction left : capitals.length - n generalizing n before before' old new with
  | zero =>
    have all : capitals.drop n = [] := List.drop_eq_nil_iff.mpr (by omega)
    rw [all] at read ⊢
    obtain ⟨⟨word, same, spelled⟩, closed⟩ := dropWord?_eq_some_iff.mp read
    cases spelled
    rw [List.nil_append] at same
    subst same
    exact ⟨[], old, rfl, rfl, .nil, renewed.endsWord_head closed, by simpa using renewed⟩
  | succ length inductionHypothesis =>
    have inside : n < capitals.length := by omega
    have letters : capitals.drop n = capitals[n] :: capitals.drop (n + 1) :=
      List.drop_eq_getElem_cons inside
    obtain ⟨⟨word, same, spelled⟩, closed⟩ := dropWord?_eq_some_iff.mp read
    cases renewed with
    | nil =>
      rw [letters] at spelled
      cases spelled
      simp at same
    | @keep _ _ c old new faithful later =>
      rw [letters] at spelled
      cases spelled with
      | @cons _ d _ word written spelled =>
        obtain ⟨rfl, rfl⟩ := List.cons.inj same
        have known : capitals[n] ∈ capitalLetters :=
          soughtWords_known _ sought (List.getElem_mem inside)
        have isWord := letterForms_isWordChar c (mem_letterForms known written)
        have read := dropWord?_eq_some_iff.mpr ⟨⟨_, rfl, spelled⟩, closed⟩
        obtain ⟨word', old', rfl, same, spelled', closed, aligned⟩ := inductionHypothesis later
          (.inr ⟨Nat.succ_pos n, by simp [endsWord, isWord]⟩) read (by omega)
        rw [letters]
        exact ⟨c :: word', old', rfl, by rw [same]; rfl, .cons written spelled', closed,
          by simpa using aligned⟩
    | @swap _ _ taken put old new swap later =>
      rcases placed with ⟨rfl, opened⟩ | ⟨started, within⟩
      · -- At its beginning the word would begin inside what was put.
        have lacking := swap.put_lacks sought before' new
        obtain ⟨c, more, rfl, _⟩ := swap.put_head
        have absent := lacking.1
        rw [List.drop_zero, List.cons_append] at read
        simp [startsWord, opened, read] at absent
      · -- Inside a word only a join can stand, and it blocks the rest of the word.
        rcases swap with wordSwap | ⟨_, join⟩
        · rw [wordSwap.opened] at within
          cases within
        · rw [dropWord?_of_blocks (join.blocks_drop sought started inside)] at read
          cases read

/-- A sought word of the new text was kept. -/
theorem Renewed.word {joins : Bool} {before before' : Option Char} {old new rest : Text}
    (renewed : Renewed joins before before' old new) {capitals : List Char}
    (sought : capitals ∈ soughtWords) (opened : endsWord before' = true)
    (read : dropWord? capitals new = some rest) :
    ∃ word old', old = word ++ old' ∧ new = word ++ rest ∧ Spells capitals word ∧
      endsWord old'.head? = true ∧
      Renewed joins (lastOf before word) (lastOf before' word) old' rest :=
  renewed.word_drop sought (n := 0) (.inl ⟨rfl, opened⟩) read

/-- A word does not begin with a blank. -/
theorem isBlankBeside_spelled {capitals : List Char} {word : Text} (spelled : Spells capitals word)
    (known : capitals ⊆ capitalLetters) (some : capitals ≠ []) (rest : Text) :
    isBlankBeside (word ++ rest).head? = false := by
  obtain ⟨c, more, rfl, letter⟩ := spelled.cons_of_known known some
  simpa [isBlankBeside] using letterForms_isBlank c letter

/-- No word that rules look for is empty. -/
theorem soughtWords_ne_nil : ∀ capitals ∈ soughtWords, capitals ≠ [] := by decide

/-- Where a sought word begins in the new text, its first letter was kept, and what stands before
it can be told from the old text. A swap cannot stand there, because no sought word begins in what
it puts. -/
theorem Renewed.follows {joins : Bool} {before before' : Option Char} {old new : Text}
    (renewed : Renewed joins before before' old new) {capitals : List Char}
    (sought : capitals ∈ soughtWords) (starts : startsWord capitals before' new = true) :
    Follows joins before before' old := by
  cases renewed with
  | nil =>
    obtain ⟨_, word, rest, same, spelled, _⟩ := startsWord_iff.mp starts
    obtain ⟨rfl, _⟩ := List.append_eq_nil_iff.mp same.symm
    exact absurd rfl (spelled.ne_nil (soughtWords_ne_nil _ sought))
  | keep follows later => exact follows
  | @swap _ _ taken put old new swap later =>
    have lacking := swap.put_lacks sought before' new
    obtain ⟨c, more, rfl, _⟩ := swap.put_head
    rw [List.cons_append, lacking.1] at starts
    cases starts

/-- A sought word begins in the old text where it begins in the new one. -/
theorem Renewed.startsWord {joins : Bool} {before before' : Option Char} {old new : Text}
    (renewed : Renewed joins before before' old new) {capitals : List Char}
    (sought : capitals ∈ soughtWords) (starts : startsWord capitals before' new = true) :
    startsWord capitals before old = true := by
  have follows := renewed.follows sought starts
  obtain ⟨opened, word, rest, same, spelled, closed⟩ := startsWord_iff.mp starts
  have read := dropWord?_eq_some_iff.mpr ⟨⟨word, same, spelled⟩, closed⟩
  obtain ⟨word', old', rfl, _, spelled', closed', _⟩ := renewed.word sought opened read
  have solid := isBlankBeside_spelled spelled' (soughtWords_known _ sought)
    (soughtWords_ne_nil _ sought) old'
  exact startsWord_iff.mpr ⟨follows.opened solid opened, word', old', rfl, spelled', closed'⟩

/-- The keyword is among the words that rules may not make. -/
theorem raiseWord_sought : raiseWord ∈ soughtWords := by decide

/-- A rule brings no keyword into a text: each one that begins in the new text began in the old
one at the same place, and swaps have none on either side. The induction goes along the
alignment. -/
theorem Renewed.countRaises_le {joins : Bool} {before before' : Option Char} {old new : Text}
    (renewed : Renewed joins before before' old new) :
    countRaises before' new ≤ countRaises before old := by
  induction renewed with
  | nil => exact Nat.le_refl _
  | @keep before before' c old new follows later inductionHypothesis =>
    have reflected : startsRaise before' (c :: new) = true → startsRaise before (c :: old) = true :=
      Renewed.startsWord (.keep follows later) raiseWord_sought
    rw [countRaises, countRaises]
    by_cases starts : startsRaise before' (c :: new) = true
    · rw [if_pos starts, if_pos (reflected starts)]
      omega
    · rw [if_neg starts]
      omega
  | @swap before before' taken put old new swap later inductionHypothesis =>
    rw [countRaises_append_of_lacks (swap.put_lacks raiseWord_sought before' new),
      countRaises_append_of_lacks (swap.taken_lacks before old)]
    exact inductionHypothesis

/-- Without joins, the end of a word in the old text is the end of a word in the new
one. -/
theorem Renewed.endsWord_head_of_old {before before' : Option Char} {old new : Text}
    (renewed : Renewed false before before' old new) (closed : endsWord old.head? = true) :
    endsWord new.head? = true := by
  cases renewed with
  | nil => rfl
  | keep faithful later => exact closed
  | swap swap later =>
    rcases swap with wordSwap | ⟨impossible, _⟩
    · obtain ⟨c, more, rfl, letter⟩ := wordSwap.taken_head
      simp [endsWord, letterForms_isWordChar c letter] at closed
    · cases impossible

/-- Without joins, the keyword begins in the new text where it begins in the old one. -/
theorem Renewed.startsRaise_of_old {before before' : Option Char} {c : Char} {old new : Text}
    (follows : Follows false before before' (c :: old))
    (renewed : Renewed false (some c) (some c) old new)
    (starts : startsRaise before (c :: old) = true) : startsRaise before' (c :: new) = true := by
  obtain ⟨opened, word, rest, same, spelled, closed⟩ := startsWord_iff.mp starts
  obtain ⟨d, more, rfl, letter⟩ := spelled.cons_of_known raiseWord_known (by decide)
  obtain ⟨rfl, rfl⟩ := List.cons.inj same
  have isWord := letterForms_isWordChar c letter
  obtain ⟨new', rfl, later⟩ := renewed.letters_of_old Swap.mono (by simp [endsWord, isWord])
    fun e member => spelled.letters raiseWord_known e (by simp [member])
  exact startsWord_iff.mpr ⟨follows.closed rfl opened, c :: more, new', rfl, spelled,
    Renewed.endsWord_head_of_old later closed⟩

/-- A rule without joins keeps every keyword: one begins at a kept character in the new text
exactly if it did in the old one. The induction goes along the alignment. -/
theorem Renewed.countRaises_eq {before before' : Option Char} {old new : Text}
    (renewed : Renewed false before before' old new) :
    countRaises before' new = countRaises before old := by
  induction renewed with
  | nil => rfl
  | @keep before before' c old new follows later inductionHypothesis =>
    have same : startsRaise before' (c :: new) = startsRaise before (c :: old) := by
      apply Bool.eq_iff_iff.mpr
      constructor
      · intro starts
        exact Renewed.startsWord (.keep follows later) raiseWord_sought starts
      · intro starts
        exact Renewed.startsRaise_of_old follows later starts
    rw [countRaises, countRaises, same, inductionHypothesis]
  | @swap before before' taken put old new swap later inductionHypothesis =>
    rw [countRaises_append_of_lacks (swap.put_lacks raiseWord_sought before' new),
      countRaises_append_of_lacks (swap.taken_lacks before old)]
    exact inductionHypothesis

end SqlRenewal
